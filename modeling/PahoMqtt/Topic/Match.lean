import PahoMqtt.Topic.Filter
/-!
# Topic matching is the MQTT relation

MQTT v5 §4.7 matches a filter against a topic name level by level: `"+"` matches exactly
one level, a final `"#"` matches the parent level and any number of levels below it, and
every other level matches itself (`levelsMatch`). A filter whose first level is a
wildcard matches no topic whose first level begins with `'$'` (`mqttMatches`). This file
states the relation from those words and shows that `topic_filter::matches` computes it
on every valid filter and every valid topic name (`matches_eq_mqttMatches`).

The two forms the constructor can keep are treated apart. A valid filter without
wildcard levels has no `'+'` and does not end in `'#'`, so the constructor keeps it
whole. The relation is then equality of the level lists, and since joining with `'/'`
inverts the split, that is equality of the strings. A filter with wildcards is kept as
levels. The first pre-check rejects exactly the filters too long for the topic that the
relation rejects, and the second the filters too short (`levelsMatch_length`). The
`'$'` test is the relation's first-level rule (`dollarTest_eq`). From there the loop
walks both level lists as `levelsMatch` does (`matchLoop_eq`). Its stop at `"#"` is the
relation's final `"#"`, and its return at index `nt` never fires.
-/

namespace PahoMqtt

namespace Topic

/-- Level-wise matching: a final `"#"` matches the parent level and any levels below it,
`"+"` matches one level, and every other level matches only itself. -/
def levelsMatch : List String → List String → Bool
  | [], ts => ts.isEmpty
  | f :: fs, ts =>
    if f = "#" ∧ fs = [] then true
    else match ts with
      | [] => false
      | t :: ts => (f == "+" || f == t) && levelsMatch fs ts

/-- The MQTT v5 §4.7 matching relation, on the levels of both strings. -/
def mqttMatches (filter topic : String) : Bool :=
  !((levels filter).head?.any (fun l => l == "+" || l == "#") &&
      (levels topic).head?.any (fun l => l.data.head? == some '$')) &&
    levelsMatch (levels filter) (levels topic)

/-- A valid topic filter: non-empty, every level holding `'+'` or `'#'` is exactly `"+"`
or `"#"`, and `"#"` is at most the last level. -/
def ValidFilter (filter : String) : Prop :=
  filter ≠ "" ∧ (∀ l ∈ levels filter, '+' ∈ l.data ∨ '#' ∈ l.data → l = "+" ∨ l = "#") ∧
    "#" ∉ (levels filter).dropLast

/-- A valid topic name: non-empty, with no wildcard character. -/
def ValidTopic (topic : String) : Prop :=
  topic ≠ "" ∧ '+' ∉ topic.data ∧ '#' ∉ topic.data

instance : DecidablePred ValidFilter := fun filter =>
  inferInstanceAs (Decidable (filter ≠ "" ∧ _ ∧ _))

instance : DecidablePred ValidTopic := fun topic =>
  inferInstanceAs (Decidable (topic ≠ "" ∧ _ ∧ _))

/-! ## Levels and the characters of the string -/

theorem mem_intercalate_of_mem {α : Type} (x : α) :
    ∀ {L : List (List α)} {l : List α}, l ∈ L → ∀ c ∈ l, c ∈ [x].intercalate L
  | [], _, hl, _, _ => absurd hl (List.not_mem_nil _)
  | [a], l, hl, c, hc => by
    rw [List.mem_singleton.1 hl] at hc
    simpa [List.intercalate] using hc
  | a :: b :: L, l, hl, c, hc => by
    rw [intercalate_cons_cons]
    rcases List.mem_cons.1 hl with rfl | hl
    · exact List.mem_append_left _ hc
    · exact List.mem_append_right _ (List.mem_cons_of_mem _ (mem_intercalate_of_mem x hl c hc))

/-- Every character of a level is a character of the string. -/
theorem mem_data_of_mem_levels {s l : String} (hl : l ∈ levels s) {c : Char} (hc : c ∈ l.data) :
    c ∈ s.data := by
  rw [← intercalate_levels s, data_intercalate]
  exact mem_intercalate_of_mem '/' (List.mem_map_of_mem _ hl) c hc

theorem intercalate_append_singleton {α : Type} (x : α) (a : List α) :
    ∀ L : List (List α), L ≠ [] → [x].intercalate (L ++ [a]) = [x].intercalate L ++ x :: a
  | [b], _ => by simp [List.intercalate]
  | b :: c :: L, _ => by
    rw [List.cons_append, List.cons_append, intercalate_cons_cons, ← List.cons_append,
      intercalate_append_singleton x a (c :: L) (List.cons_ne_nil _ _), intercalate_cons_cons]
    simp

/-- A string whose last level is `"#"` ends in `'#'`. -/
theorem back_of_getLast_levels {s : String} (h : (levels s).getLast? = some "#") :
    s.back = '#' := by
  have hdata : s.data = ['/'].intercalate (((levels s).dropLast ++ ["#"]).map String.data) := by
    rw [List.dropLast_append_getLast? _ h, ← data_intercalate, intercalate_levels]
  have hlast : s.data.getLast? = some '#' := by
    rw [hdata, List.map_append, List.map_singleton]
    by_cases hnil : (levels s).dropLast = []
    · simp [hnil, List.intercalate]
    · rw [intercalate_append_singleton _ _ _ (fun h => hnil (List.map_eq_nil_iff.1 h))]
      simp
  simp [String.back_eq, List.getLastD_eq_getLast?, hlast]

theorem levels_injective {s t : String} (h : levels s = levels t) : s = t := by
  rw [← intercalate_levels s, h, intercalate_levels]

/-! ## The relation -/

theorem levelsMatch_of_plain :
    ∀ {fs : List String} (ts : List String), (∀ l ∈ fs, l ≠ "+" ∧ l ≠ "#") →
      levelsMatch fs ts = (fs == ts)
  | [], ts, _ => by cases ts <;> rfl
  | f :: fs, ts, h => by
    have hf := h f (List.mem_cons_self _ _)
    cases ts with
    | nil => simp [levelsMatch, hf.2]
    | cons t ts =>
      have hplus : (f == "+") = false := by simpa using hf.1
      simp [levelsMatch, hf.2, hplus,
        levelsMatch_of_plain ts fun l hl => h l (List.mem_cons_of_mem _ hl)]

/-- A match leaves the filter as long as the topic, or ending in `"#"` and at most one
level longer. -/
theorem levelsMatch_length : ∀ {fs ts : List String}, levelsMatch fs ts = true →
    fs.length = ts.length ∨ (fs.getLast? = some "#" ∧ fs.length ≤ ts.length + 1)
  | [], ts, h => .inl (by cases ts <;> simp_all [levelsMatch])
  | f :: fs, ts, h => by
    unfold levelsMatch at h
    split_ifs at h with hf
    · obtain ⟨rfl, rfl⟩ := hf
      exact .inr ⟨rfl, by simp⟩
    · cases ts with
      | nil => simp at h
      | cons t ts =>
        simp only [Bool.and_eq_true] at h
        rcases levelsMatch_length h.2 with hl | ⟨hl, hle⟩
        · exact .inl (by simp [hl])
        · cases fs with
          | nil => simp at hl
          | cons g fs => exact .inr ⟨by simpa [List.getLast?_cons_cons] using hl, by simp at hle ⊢; omega⟩

/-- The pre-checks' verdict: a filter matches a topic of another length only by a final
`"#"`, and then it is at most one level longer. -/
theorem levelsMatch_eq_false_of_length {fs ts : List String}
    (h : fs.length ≠ ts.length ∧ ¬(fs.getLast? = some "#" ∧ fs.length ≤ ts.length + 1)) :
    levelsMatch fs ts = false :=
  Bool.eq_false_iff.2 fun hm => (levelsMatch_length hm).elim h.1 h.2

/-- A valid filter that the constructor keeps whole has no wildcard level: it has no
`'+'`, and a `"#"` level, being the last, would end it in `'#'`. -/
theorem not_wildcard_of_hasWildcards {filter : String} (hfne : filter ≠ "")
    (hv : "#" ∉ (levels filter).dropLast) (hw : hasWildcards filter = false) :
    ∀ l ∈ levels filter, l ≠ "+" ∧ l ≠ "#" := by
  have hfne' : filter.isEmpty = false :=
    Bool.eq_false_iff.2 fun h => hfne ((String.isEmpty_iff _).1 h)
  simp only [hasWildcards, hfne', Bool.false_eq_true, if_false] at hw
  split_ifs at hw with hback
  have hnoplus : '+' ∉ filter.data := fun h =>
    find_eq_none (Option.not_isSome_iff_eq_none.1 (by simpa using hw)) '+' (by simpa using h) rfl
  intro l hl
  refine ⟨fun h => hnoplus (mem_data_of_mem_levels hl (by simp [h])), fun h => hback ?_⟩
  subst h
  apply back_of_getLast_levels
  rw [← List.dropLast_append_getLast (levels_ne_nil filter)] at hl
  rcases List.mem_append.1 hl with h | h
  · exact absurd h hv
  · rw [List.getLast?_eq_getLast _ (levels_ne_nil filter), List.mem_singleton.1 h]

/-! ## The code computes the relation -/

theorem dollarTest_eq (f0 : String) (topicFields : List String) :
    dollarTest f0 topicFields =
      some (isWildcard f0 && topicFields.head?.any (fun l => l.data.head? == some '$')) := by
  unfold dollarTest
  cases topicFields with
  | nil => simp
  | cons t0 ts =>
    by_cases hw : isWildcard f0
    · obtain ⟨cs⟩ := t0
      cases cs <;> simp [hw, beq_eq_decide]
    · simp [hw]

/-- **The loop is the level-wise relation**, on a filter whose only `"#"` is last, once the
pre-checks have let it through: from index `i`, with no `"#"` before it, the loop returns
`levelsMatch` of the levels from `i` on. -/
theorem matchLoop_eq {F T : List String} (hv : "#" ∉ F.dropLast)
    (h1 : T.length < F.length → F.length = T.length + 1 ∧ F.getLast? = some "#")
    (h2 : F.length < T.length → F.getLast? = some "#") :
    ∀ k i, i + k = F.length → i ≤ T.length → "#" ∉ F.take i →
      matchLoop F T k i = some (levelsMatch (F.drop i) (T.drop i))
  | 0, i, hk, hiT, htake => by
    -- past the filter's end: the topic has ended too, or a `"#"` was passed
    have hT : T.length ≤ i := by
      by_contra hlt
      exact htake (by
        rw [List.take_of_length_le (by omega)]
        exact List.mem_of_getLast?_eq_some (h2 (by omega)))
    simp [matchLoop, List.drop_of_length_le (show F.length ≤ i by omega),
      List.drop_of_length_le hT, levelsMatch]
  | k + 1, i, hk, hiT, htake => by
    have hi : i < F.length := by omega
    unfold matchLoop
    rw [List.getElem?_eq_getElem hi, Option.some_bind, List.drop_eq_getElem_cons hi]
    by_cases hhash : F[i] = "#"
    · -- the final `"#"`: nothing after it
      have hlast : F.drop (i + 1) = [] := by
        by_contra hne
        apply hv
        rw [← List.take_append_drop i F, List.drop_eq_getElem_cons hi,
          List.dropLast_append_of_ne_nil _ (List.cons_ne_nil _ _), List.dropLast_cons_of_ne_nil hne, hhash]
        simp
      simp [hhash, hlast, levelsMatch]
    · -- a topic level is left to compare
      have hit : i < T.length := lt_length_of_ne_hash ((le_or_lt _ _).imp_right h1) hi hhash
      have htake' : "#" ∉ F.take (i + 1) := by
        rw [List.take_succ, List.getElem?_eq_getElem hi]
        simp only [Option.toList_some, List.mem_append, List.mem_singleton, not_or]
        exact ⟨htake, fun h => hhash h.symm⟩
      have ih := matchLoop_eq hv h1 h2 k (i + 1) (by omega) hit htake'
      rw [List.drop_eq_getElem_cons hit]
      simp only [levelsMatch, hhash, false_and, if_false, show ¬(i = T.length ∧ i < F.length - 1) by
        omega]
      by_cases hplus : F[i] = "+"
      · simp [hplus, ih]
      · rw [if_pos hplus, List.getElem?_eq_getElem hit, Option.some_bind]
        by_cases heq : F[i] = T[i]
        · simp [heq, hplus, ih]
        · simp [heq, hplus]

/-- **`topic_filter::matches` is the MQTT v5 matching relation** on every valid filter and
every valid topic name, whichever form the constructor keeps: the whole string, compared
with the topic, when the filter has no wildcard, and its levels otherwise. -/
theorem matches_eq_mqttMatches {filter topic : String} (hf : ValidFilter filter)
    (ht : ValidTopic topic) : (topicFilter filter).matches topic = some (mqttMatches filter topic) := by
  obtain ⟨hfne, -, hv⟩ := hf
  have hsplit : split topic = levels topic := by rw [split_eq, if_neg ht.1]
  unfold topicFilter mqttMatches
  split
  · -- kept as levels
    rename_i hw
    rw [split_eq, if_neg hfne]
    generalize hF : levels filter = F at hv ⊢
    generalize hT : levels topic = T at hsplit ⊢
    have hFne : F ≠ [] := hF ▸ levels_ne_nil filter
    obtain ⟨back, hback⟩ : ∃ back, F.getLast? = some back :=
      Option.ne_none_iff_exists'.1 (mt List.getLast?_eq_none_iff.1 hFne)
    obtain ⟨f0, F', rfl⟩ := List.exists_cons_of_ne_nil hFne
    simp only [TopicFilter.matches, hsplit, List.length_cons, Nat.add_one_ne_zero, if_false,
      hback, Option.some_bind, List.getElem?_cons_zero, dollarTest_eq, List.head?_cons,
      Option.any_some]
    rw [show (f0 == "+" || f0 == "#") = isWildcard f0 from rfl]
    split_ifs with hp1 hp2 hd
    · -- longer than the topic and not by one final `"#"`
      rw [levelsMatch_eq_false_of_length ⟨by simp; omega, by
        rw [hback]; rintro ⟨h, hle⟩; exact hp1.2 ⟨by simp at hle; omega, Option.some_inj.1 h⟩⟩]
      simp
    · -- shorter than the topic and not ending in `"#"`
      rw [levelsMatch_eq_false_of_length ⟨by simp; omega, by
        rw [hback]; rintro ⟨h, -⟩; exact hp2.2 (Option.some_inj.1 h)⟩]
      simp
    · -- a wildcard first level against a topic beginning with `'$'`
      rw [hd]
      rfl
    · -- past the checks the loop is the relation
      have h1 (h : T.length < (f0 :: F').length) :
          (f0 :: F').length = T.length + 1 ∧ (f0 :: F').getLast? = some "#" :=
        (Classical.not_not.1 (not_and.1 hp1 h)).imp_right fun (hb : back = "#") => hb ▸ hback
      have h2 (h : (f0 :: F').length < T.length) : (f0 :: F').getLast? = some "#" :=
        Classical.not_not.1 (not_and.1 hp2 h) ▸ hback
      rw [matchLoop_eq hv h1 h2 (F'.length + 1) 0 (by simp) (Nat.zero_le _) (by simp),
        eq_false_of_ne_true hd]
      rfl
  · -- kept whole
    rename_i hw
    have hplain := not_wildcard_of_hasWildcards hfne hv (eq_false_of_ne_true hw)
    have hhead : (levels filter).head?.any (fun l => l == "+" || l == "#") = false := by
      cases hF : levels filter with
      | nil => rfl
      | cons f0 F' => simpa using hplain f0 (hF ▸ List.mem_cons_self _ _)
    simp only [TopicFilter.matches, levelsMatch_of_plain _ hplain, hhead, Bool.false_and,
      Bool.not_false, Bool.true_and]
    by_cases h : filter = topic
    · simp [h]
    · simpa [h] using fun e => h (levels_injective e)

/-- A filter with both wildcards against the parent level of its `"#"`. -/
theorem matches_eq_mqttMatches_parent :
    ValidFilter "sport/+/#" ∧ ValidTopic "sport/tennis" ∧
      (topicFilter "sport/+/#").matches "sport/tennis" = some (mqttMatches "sport/+/#" "sport/tennis") :=
  have hf : ValidFilter "sport/+/#" := by decide
  have ht : ValidTopic "sport/tennis" := by decide
  ⟨hf, ht, matches_eq_mqttMatches hf ht⟩

end Topic

end PahoMqtt
