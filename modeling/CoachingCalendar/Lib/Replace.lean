import Mathlib.Data.List.Basic

/-!
# Replacing a character

`String.replace` of one character, character by character.
-/

namespace Lib
open String.Slice String.Slice.Pattern String.Slice.Pattern.Model

/-- What a character becomes. -/
def substitute (c : Char) (t : String) (x : Char) : List Char := if x = c then t.toList else [x]

theorem flatMap_substitute_of_not_mem {c : Char} {t : String} {l : List Char} (h : c ∉ l) :
    l.flatMap (substitute c t) = l := by
  induction l with
  | nil => rfl
  | cons x l ih =>
      rw [List.mem_cons, not_or] at h
      rw [List.flatMap_cons, ih h.2, substitute, if_neg (Ne.symm h.1)]
      rfl

variable {s : String.Slice} {c : Char} {t t₁ t₂ : String} {p q : s.Pos}

/-- A stretch without a match does not have the character. -/
theorem not_mem_of_not_matchesAt {m : String} (hp : p.Splits t₁ (m ++ t₂)) (hq : q.Splits (t₁ ++ m) t₂)
    (h : ∀ r, p ≤ r → r < q → ¬ MatchesAt (String.singleton c) r) : c ∉ m.toList := by
  intro hc
  obtain ⟨m₁, m₂, hm⟩ := List.append_of_mem hc
  have hm : m = String.ofList m₁ ++ (String.singleton c ++ String.ofList m₂) := by
    rw [← String.toList_inj]; simpa using hm
  subst hm
  have hs : s.copy = (t₁ ++ String.ofList m₁) ++ (String.singleton c ++ (String.ofList m₂ ++ t₂)) := by
    simpa [String.append_assoc] using hp.eq_append
  have hr := String.Slice.Pos.splits_ofEqAppend hs
  refine h _ ((hp.le_iff_exists_eq_append hr).mpr ⟨_, rfl, by simp [String.append_assoc]⟩)
    ((hr.lt_iff_exists_eq_append hq).mpr ⟨String.singleton c ++ String.ofList m₂, ?_, ?_, ?_⟩)
    (ForwardStringSearcher.matchesAt_iff_splits.mpr ⟨_, _, hr⟩)
  all_goals simp [String.append_assoc]

/-- A pass over a search that copies what does not match and puts `t` for each match. -/
theorem foldl_search {f : String → SearchStep s → String} (hmatched : ∀ acc p q, f acc (.matched p q) = acc ++ t)
    (hrejected : ∀ acc p q, f acc (.rejected p q) = acc ++ (s.slice! p q).copy) {l : List (SearchStep s)}
    (h : IsValidSearchFrom (String.singleton c) p l) (acc : String) (hp : p.Splits t₁ t₂) :
    (l.foldl f acc).toList = acc.toList ++ t₂.toList.flatMap (substitute c t) := by
  induction h generalizing acc t₁ t₂ with
  | endPos =>
      obtain ⟨-, rfl⟩ := String.Slice.splits_endPos_iff.mp hp
      simp
  | matched hm _ ih =>
      obtain ⟨u₁, u₂, hu₁, hu₂⟩ := ForwardStringSearcher.isLongestMatchAt_iff_splits.mp hm
      obtain rfl := hp.eq_right hu₁
      rw [List.foldl_cons, hmatched, ih _ hu₂]
      simp [substitute]
  | @mismatched _ start stop hlt hn _ ih =>
      obtain ⟨u₁, u₂, hq⟩ : ∃ u₁ u₂, stop.Splits u₁ u₂ := ⟨_, _, stop.splits⟩
      obtain ⟨m, rfl, rfl⟩ := (hp.le_iff_exists_eq_append hq).mp (Std.le_of_lt hlt)
      have hm : (s.slice! start stop).copy = m := by
        obtain ⟨_, hm⟩ := String.Slice.copy_slice_eq_iff_splits.mpr ⟨_, _, hp, hq⟩
        rwa [String.Slice.slice_eq_slice!] at hm
      have hc := not_mem_of_not_matchesAt hp hq hn
      rw [List.foldl_cons, hrejected, ih _ hq, hm]
      simp [flatMap_substitute_of_not_mem hc]

theorem toList_replace (s : String) (c : Char) (t : String) :
    (s.replace (String.singleton c) t).toList = s.toList.flatMap (substitute c t) := by
  have hv := (@ForwardStringSearcher.lawfulToForwardSearcherModel (String.singleton c)
    (by simp)).isValidSearchFrom_toList s.toSlice
  unfold String.replace String.Slice.replace
  rw [← Std.Iter.foldl_toList, foldl_search (t := t) (fun acc _ _ => congrArg (acc ++ ·) String.copy_toSlice)
    (fun _ _ _ => rfl) hv "" (String.Slice.splits_startPos _)]
  simp

end Lib
