import Mathlib
/-!
# Topic levels

`topic::split` cuts a topic name or filter at every `'/'`, empty levels kept, with a
`find`/`substr` loop that stops when `find` returns `npos`. The loop is modelled over the
characters of the string: `'/'` is one byte, and in UTF-8 no byte of a multi-byte
character is `'/'`, so the character positions of `'/'` cut the string where the byte
positions do.

Each pass finds the next `'/'` at or after `startPos` and moves past it, so the loop
makes at most one pass more than the string has characters. With that many passes it is
`List.splitOn '/'` on the characters (`splitLoop_eq`), and `topic::split` is the empty list
on the empty string and the levels otherwise (`split_eq`). Joining with `'/'` inverts it
(`intercalate_split`), and it inverts joining on every non-empty list of levels without
`'/'` other than `[""]` (`split_intercalate`).
-/

namespace PahoMqtt

namespace Topic

/-- `std::string::find(c, pos)`: the first index at or after `pos` holding `c`, with `none`
for `npos`. -/
def find (s : List Char) (c : Char) (pos : ℕ) : Option ℕ :=
  ((s.drop pos).findIdx? (· = c)).map (· + pos)

/-- `s.substr(pos, n)`, with `none` for `npos`: the rest of the string. -/
def substr (s : List Char) (pos : ℕ) : Option ℕ → String
  | none => ⟨s.drop pos⟩
  | some n => ⟨(s.drop pos).take n⟩

/-- The `do { … } while (pos != npos)` loop of `topic::split` from `startPos`, pushing onto
`v`, with `fuel` passes left. -/
def splitLoop (s : List Char) : ℕ → ℕ → List String → List String
  | 0, _, v => v
  | fuel + 1, startPos, v =>
    let pos := find s '/' startPos
    let v := v ++ [substr s startPos (pos.map (· - startPos))]
    match pos with
    | none => v
    | some pos => splitLoop s fuel (pos + 1) v

/-- `topic::split`, with a pass more than the string has characters. -/
def split (s : String) : List String :=
  if s.isEmpty then [] else splitLoop s.data (s.length + 1) 0 []

/-- The levels of a topic name or filter: the string cut at every `'/'`, empty levels
kept. -/
def levels (s : String) : List String :=
  (s.data.splitOn '/').map String.mk

/-! ## The loop is `splitOn` -/

/-- Where `find` stops: the characters before it hold no `c`, and it holds `c`. -/
theorem find_eq_some {s : List Char} {c : Char} {start pos : ℕ} (h : find s c start = some pos) :
    start ≤ pos ∧ s.drop start = (s.drop start).take (pos - start) ++ c :: s.drop (pos + 1) ∧
      ∀ x ∈ (s.drop start).take (pos - start), x ≠ c := by
  obtain ⟨j, hj, rfl⟩ := Option.map_eq_some'.1 h
  obtain ⟨hlt, hc, hbefore⟩ := List.findIdx?_eq_some_iff_getElem.1 hj
  refine ⟨by omega, ?_, fun x hx => ?_⟩
  · have hc' : (s.drop start)[j] = c := by simpa using hc
    conv_lhs => rw [← List.take_append_drop j (s.drop start), List.drop_eq_getElem_cons hlt, hc',
      List.drop_drop]
    rw [Nat.add_sub_cancel, show start + (j + 1) = j + start + 1 by omega]
  · obtain ⟨k, hk, rfl⟩ := List.getElem_of_mem hx
    simp only [Nat.add_sub_cancel, List.length_take, lt_min_iff] at hk
    simpa using hbefore k hk.1

theorem find_eq_none {s : List Char} {c : Char} {start : ℕ} (h : find s c start = none) :
    ∀ x ∈ s.drop start, x ≠ c := by
  simpa [find, List.findIdx?_eq_none_iff] using h

/-- **The loop of `topic::split` is `splitOn '/'`** from `startPos`, given a pass more than
the characters left. -/
theorem splitLoop_eq (s : List Char) :
    ∀ (fuel startPos : ℕ) (v : List String), s.length - startPos < fuel → startPos ≤ s.length →
      splitLoop s fuel startPos v = v ++ ((s.drop startPos).splitOn '/').map String.mk
  | 0, _, _, h, _ => absurd h (Nat.not_lt_zero _)
  | fuel + 1, startPos, v, hfuel, hstart => by
    unfold splitLoop
    cases hf : find s '/' startPos with
    | none =>
      -- no `'/'` left: one last level, the rest of the string
      rw [List.splitOn, List.splitOnP_eq_single _ _ fun x hx => by simpa using find_eq_none hf x hx]
      rfl
    | some pos =>
      -- the level up to the `'/'`, then the loop from just past it
      obtain ⟨hle, hsplit, hnone⟩ := find_eq_some hf
      have hlen : pos < s.length := by
        have := congrArg List.length hsplit
        simp only [List.length_drop, List.length_append, List.length_take, List.length_cons] at this
        omega
      dsimp only
      rw [splitLoop_eq s fuel (pos + 1) _ (by omega) (by omega), hsplit]
      simp only [List.splitOn]
      rw [List.splitOnP_first (p := fun x => x == '/') _ (fun x hx => by simpa using hnone x hx) _
        (by simp)]
      simp [substr]

/-- **`topic::split` is empty on the empty string and the levels otherwise.** -/
theorem split_eq (s : String) : split s = if s = "" then [] else levels s := by
  unfold split levels
  by_cases hs : s = ""
  · subst hs
    rfl
  · have : ¬s.isEmpty := fun h => hs ((String.isEmpty_iff s).1 h)
    rw [if_neg this, if_neg hs, splitLoop_eq _ _ _ _ (by show s.data.length - 0 < s.data.length + 1; omega)
      (Nat.zero_le _)]
    rfl

theorem levels_ne_nil (s : String) : levels s ≠ [] := by
  simpa [levels] using List.splitOnP_ne_nil _ _

/-! ## Joining with `'/'` -/

theorem intercalate_cons_cons {α : Type} (x : α) (a b : List α) (L : List (List α)) :
    [x].intercalate (a :: b :: L) = a ++ x :: [x].intercalate (b :: L) := by
  simp [List.intercalate, List.intersperse_cons₂]

theorem data_intercalate_go (acc sep a : String) (L : List String) :
    (String.intercalate.go acc sep (a :: L)).data =
      acc.data ++ sep.data ++ sep.data.intercalate ((a :: L).map String.data) := by
  induction L generalizing acc a with
  | nil => simp [String.intercalate.go, List.intercalate]
  | cons b L ih =>
    rw [String.intercalate.go, ih]
    simp [List.intercalate, List.intersperse_cons₂]

/-- Joining with `'/'`, on the characters. -/
theorem data_intercalate (L : List String) :
    ("/".intercalate L).data = ['/'].intercalate (L.map String.data) := by
  have hsep : "/".data = ['/'] := rfl
  match L with
  | [] => rfl
  | [a] => simp [String.intercalate, String.intercalate.go, List.intercalate]
  | a :: b :: L =>
    rw [String.intercalate, data_intercalate_go, hsep]
    simp only [List.map_cons, intercalate_cons_cons]
    simp

/-- **Joining the levels with `'/'` gives the string back.** -/
theorem intercalate_levels (s : String) : "/".intercalate (levels s) = s :=
  String.ext (by simpa [data_intercalate, levels, Function.comp_def] using
    List.intercalate_splitOn s.data '/')

/-- **Splitting undoes joining** on every non-empty list of levels without `'/'`. -/
theorem levels_intercalate {L : List String} (hne : L ≠ []) (hsep : ∀ l ∈ L, '/' ∉ l.data) :
    levels ("/".intercalate L) = L := by
  rw [levels, data_intercalate, List.splitOn_intercalate _ '/' (by simpa using hsep) (by simpa)]
  simp [Function.comp_def]

/-- Only `[""]` among the non-empty lists joins to the empty string. -/
theorem intercalate_eq_empty {L : List String} (hne : L ≠ []) (h : "/".intercalate L = "") :
    L = [""] := by
  match L, hne with
  | [a], _ => simpa using h
  | a :: b :: L, _ =>
    have := congrArg String.data h
    rw [data_intercalate, List.map_cons, List.map_cons, intercalate_cons_cons] at this
    simp at this

/-- **`topic::split` and joining with `'/'` invert each other**: joining the split string
gives it back, and splitting a join gives back every non-empty list of levels without
`'/'` other than `[""]`, which joins to the empty string that splits to nothing. -/
theorem intercalate_split (s : String) : "/".intercalate (split s) = s := by
  rw [split_eq]
  split_ifs with hs
  · exact hs.symm
  · exact intercalate_levels s

theorem split_intercalate {L : List String} (hne : L ≠ []) (hsep : ∀ l ∈ L, '/' ∉ l.data)
    (hL : L ≠ [""]) : split ("/".intercalate L) = L := by
  rw [split_eq, if_neg fun h => hL (intercalate_eq_empty hne h), levels_intercalate hne hsep]

end Topic

end PahoMqtt
