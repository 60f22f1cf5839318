import PahoMqtt.Topic.Split
/-!
# Topic filters

A `topic_filter` keeps the filter string whole when it has no wildcard, and its levels
otherwise (`topicFilter`). `matches` compares a plain filter with the topic as strings; a
split one it compares level by level, after two length pre-checks and the rule that a
wildcard in the first level matches no topic whose first level begins with `'$'`.

`matches` indexes `fields`, `topic_fields` and `topic_fields[0]` without bounds checks.
Here every such read goes through `xs[i]?`, and `none` stands for a read out of range.
The first pre-check lets through a filter longer than the topic only when it is one level
longer and ends in `"#"`, and the loop stops at a `"#"` before it reads a topic level. So
the reads stay in range on every filter string and every topic string, malformed ones
included (`matches_ne_none`): a filter longer than the topic reaches index `nt` only at
its final `"#"`.

`to_string` writes the levels back with `'/'` between them; with the round trip of
`topic::split` it gives back the string the filter was built from (`split_roundTrip`).
-/

namespace PahoMqtt

namespace Topic

/-- Modelled from the spec: `topic::is_wildcard(s)`, declared in `topic.h` (not among the
sources), the level `"+"` or `"#"`. -/
def isWildcard (s : String) : Bool :=
  s == "+" || s == "#"

/-- `topic_filter::has_wildcards(filter)`: a `'#'` at the end or a `'+'` anywhere. -/
def hasWildcards (filter : String) : Bool :=
  if filter.isEmpty then false
  else if filter.back = '#' then true
  else (find filter.data '+' 0).isSome

/-- What a `topic_filter` holds: the whole filter string, or its levels. -/
inductive TopicFilter
  | plain (filter : String)
  | fields (fields : List String)
  deriving DecidableEq, Repr

/-- The `topic_filter` constructor. -/
def topicFilter (filter : String) : TopicFilter :=
  if hasWildcards filter then .fields (split filter) else .plain filter

/-- The test `is_wildcard(fields[0]) && nt > 0 && topic_fields[0].size() > 0 &&
topic_fields[0][0] == '$'` on the first filter level, evaluated left to right. -/
def dollarTest (f0 : String) (topicFields : List String) : Option Bool :=
  if isWildcard f0 ∧ 0 < topicFields.length then
    (topicFields[0]?).bind fun t0 =>
      if 0 < t0.length then (t0.data[0]?).map (· = '$') else some false
  else some false

/-- The loop `for (size_t i = 0; i < n; ++i)` of `topic_filter::matches` from index `i`,
with `k` passes left. -/
def matchLoop (fields topicFields : List String) : ℕ → ℕ → Option Bool
  | 0, _ => some true
  | k + 1, i =>
    (fields[i]?).bind fun fi =>
      if fi = "#" then some true
      else if i = topicFields.length ∧ i < fields.length - 1 then (fields[i + 1]?).map (· = "#")
      else if fi ≠ "+" then
        (topicFields[i]?).bind fun ti =>
          if fi ≠ ti then some false else matchLoop fields topicFields k (i + 1)
      else matchLoop fields topicFields k (i + 1)

/-- `topic_filter::matches(topic)`. -/
def TopicFilter.matches : TopicFilter → String → Option Bool
  | .plain filter, topic => some (filter == topic)
  | .fields fs, topic =>
    let n := fs.length
    if n = 0 then some false
    else
      let topicFields := split topic
      let nt := topicFields.length
      fs.getLast?.bind fun back =>
        if nt < n ∧ ¬(n = nt + 1 ∧ back = "#") then some false
        else if n < nt ∧ back ≠ "#" then some false
        else (fs[0]?).bind fun f0 =>
          (dollarTest f0 topicFields).bind fun dollar =>
            if dollar then some false else matchLoop fs topicFields n 0

/-- The loop of `topic_filter::to_string`: each level but the last followed by `'/'`, then
the last. -/
def appendFields : String → List String → String
  | s, [] => s
  | s, [f] => s ++ f
  | s, f :: fs => appendFields ((s ++ f).push '/') fs

/-- `topic_filter::to_string`. -/
def TopicFilter.toString : TopicFilter → String
  | .plain filter => filter
  | .fields fs => if 0 < fs.length then appendFields "" fs else ""

/-! ## Every read is in range -/

/-- A filter level other than `"#"` has a topic level at its index, when the filter is no
longer than the topic or one level longer and ending in `"#"`: past the topic's end only
the final `"#"` is left. -/
theorem lt_length_of_ne_hash {fields topicFields : List String}
    (h : fields.length ≤ topicFields.length ∨
      (fields.length = topicFields.length + 1 ∧ fields.getLast? = some "#"))
    {i : ℕ} (hi : i < fields.length) (hhash : fields[i] ≠ "#") : i < topicFields.length := by
  rcases h with h | ⟨hlen, hback⟩
  · omega
  · by_contra hge
    rw [List.getLast?_eq_getElem?, List.getElem?_eq_getElem (by omega)] at hback
    exact hhash (by simpa [show i = fields.length - 1 by omega] using hback)

/-- The loop reads in range whenever the filter is no longer than the topic, or one level
longer and ending in `"#"`. -/
theorem matchLoop_ne_none {fields topicFields : List String}
    (h : fields.length ≤ topicFields.length ∨
      (fields.length = topicFields.length + 1 ∧ fields.getLast? = some "#")) :
    ∀ k i, i + k = fields.length → matchLoop fields topicFields k i ≠ none
  | 0, _, _ => Option.some_ne_none _
  | k + 1, i, hk => by
    have hi : i < fields.length := by omega
    unfold matchLoop
    rw [List.getElem?_eq_getElem hi, Option.some_bind]
    split_ifs with hhash hlast hplus
    · exact Option.some_ne_none _
    · rw [List.getElem?_eq_getElem (by omega)]
      exact Option.some_ne_none _
    · rw [List.getElem?_eq_getElem (lt_length_of_ne_hash h hi hhash), Option.some_bind]
      split_ifs
      · exact Option.some_ne_none _
      · exact matchLoop_ne_none h k (i + 1) (by omega)
    · exact matchLoop_ne_none h k (i + 1) (by omega)

theorem dollarTest_ne_none (f0 : String) (topicFields : List String) :
    dollarTest f0 topicFields ≠ none := by
  unfold dollarTest
  split_ifs with h
  · rw [List.getElem?_eq_getElem h.2, Option.some_bind]
    split_ifs with h0
    · rw [Ne, Option.map_eq_none', List.getElem?_eq_none_iff, not_le]
      exact h0
    · exact Option.some_ne_none _
  · exact Option.some_ne_none _

/-- **`matches` reads in range on every filter and every topic**: the bounds-checked model
never takes its out-of-range branch, malformed filters and topics included. -/
theorem matches_ne_none (filter topic : String) : (topicFilter filter).matches topic ≠ none := by
  unfold topicFilter
  split
  · generalize split filter = fields
    simp only [TopicFilter.matches]
    split_ifs with hn
    · exact Option.some_ne_none _
    · obtain ⟨back, hback⟩ : ∃ back, fields.getLast? = some back := Option.ne_none_iff_exists'.1
        (mt List.getLast?_eq_none_iff.1 (List.ne_nil_of_length_pos (Nat.pos_of_ne_zero hn)))
      rw [hback, Option.some_bind]
      split_ifs with h1
      · exact Option.some_ne_none _
      · exact Option.some_ne_none _
      · rw [List.getElem?_eq_getElem (by omega), Option.some_bind]
        obtain ⟨dollar, hd⟩ := Option.ne_none_iff_exists'.1 (dollarTest_ne_none fields[0] _)
        rw [hd, Option.some_bind]
        split_ifs
        · exact Option.some_ne_none _
        · refine matchLoop_ne_none ?_ _ 0 (Nat.zero_add _)
          rw [hback]
          by_contra hc
          exact h1 ⟨by omega, fun h => hc (.inr ⟨h.1, by rw [h.2]⟩)⟩
  · exact Option.some_ne_none _

/-! ## `to_string` -/

theorem data_appendFields (s a : String) (L : List String) :
    (appendFields s (a :: L)).data = s.data ++ ['/'].intercalate ((a :: L).map String.data) := by
  induction L generalizing s a with
  | nil => simp [appendFields, List.intercalate]
  | cons b L ih =>
    rw [appendFields, ih, String.data_push, String.data_append]
    · simp only [List.map_cons, intercalate_cons_cons]
      simp
    · exact List.cons_ne_nil _ _

/-- `to_string` on split levels joins them with `'/'`. -/
theorem TopicFilter.toString_fields (L : List String) :
    (TopicFilter.fields L).toString = "/".intercalate L := by
  match L with
  | [] => rfl
  | a :: L =>
    refine String.ext ?_
    simp only [TopicFilter.toString, List.length_cons, Nat.zero_lt_succ, if_true]
    rw [data_appendFields, data_intercalate]
    rfl

theorem toString_topicFilter (filter : String) : (topicFilter filter).toString = filter := by
  unfold topicFilter
  split
  · rw [TopicFilter.toString_fields, intercalate_split]
  · rfl

/-- **`topic::split` and joining with `'/'` are inverse, and `to_string` gives back the
filter string**: joining the split string with `'/'` gives it back; splitting a join gives
back every non-empty list of levels without `'/'` other than `[""]`; and so, whichever form
the constructor keeps, `to_string` returns the string the filter was built from. -/
theorem split_roundTrip :
    (∀ s : String, "/".intercalate (split s) = s) ∧
    (∀ L : List String, L ≠ [] → (∀ l ∈ L, '/' ∉ l.data) → L ≠ [""] →
      split ("/".intercalate L) = L) ∧
    (∀ filter : String, (topicFilter filter).toString = filter) :=
  ⟨intercalate_split, fun _ hne hsep hL => split_intercalate hne hsep hL, toString_topicFilter⟩

end Topic

end PahoMqtt
