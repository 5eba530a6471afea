import CoachingCalendar.Auth.Mail
import CoachingCalendar.Lib.Replace

/-! # Escaped HTML -/

namespace CoachingCalendar.Auth
open Lib

/-- The entities that are written for a character. -/
def entities : List String := ["&amp;", "&lt;", "&gt;", "&quot;"]

/-- The entities decoded, from left to right. -/
def unescapeChars : List Char → List Char
  | '&' :: 'a' :: 'm' :: 'p' :: ';' :: cs => '&' :: unescapeChars cs
  | '&' :: 'l' :: 't' :: ';' :: cs => '<' :: unescapeChars cs
  | '&' :: 'g' :: 't' :: ';' :: cs => '>' :: unescapeChars cs
  | '&' :: 'q' :: 'u' :: 'o' :: 't' :: ';' :: cs => '"' :: unescapeChars cs
  | c :: cs => c :: unescapeChars cs
  | [] => []

def unescapeHtml (value : String) : String := String.ofList (unescapeChars value.toList)

/-! ## Character by character -/

/-- What the four replacements make of one character. -/
def escapeChar (c : Char) : List Char :=
  if c = '&' then "&amp;".toList
  else if c = '<' then "&lt;".toList
  else if c = '>' then "&gt;".toList
  else if c = '"' then "&quot;".toList
  else [c]

/-- A later replacement finds nothing in the entities of the earlier ones. -/
theorem escapeChar_eq (c : Char) :
    (((substitute '&' "&amp;" c).flatMap (substitute '<' "&lt;")).flatMap (substitute '>' "&gt;")).flatMap
      (substitute '"' "&quot;") = escapeChar c := by
  unfold escapeChar
  split
  · subst c; decide
  · rename_i hamp
    rw [substitute, if_neg hamp, List.flatMap_singleton]
    split
    · subst c; decide
    · rename_i hlt
      rw [substitute, if_neg hlt, List.flatMap_singleton]
      split
      · subst c; decide
      · rename_i hgt
        rw [substitute, if_neg hgt, List.flatMap_singleton]
        rfl

theorem toList_escapeHtml (s : String) : (escapeHtml s).toList = s.toList.flatMap escapeChar := by
  unfold escapeHtml
  change ((((s.replace (String.singleton '&') _).replace (String.singleton '<') _).replace
    (String.singleton '>') _).replace (String.singleton '"') _).toList = _
  rw [toList_replace, toList_replace, toList_replace, toList_replace, List.flatMap_assoc, List.flatMap_assoc,
    List.flatMap_assoc]
  refine congrArg (s.toList.flatMap ·) (funext fun c => ?_)
  rw [← escapeChar_eq, List.flatMap_assoc, List.flatMap_assoc]

/-- The characters after the ampersand of an entity that decodes to `c`. -/
structure EntityOf (c : Char) (cs : List Char) : Prop where
  mem : String.ofList ('&' :: cs) ∈ entities
  safe : ∀ x ∈ cs, x ≠ '&' ∧ x ≠ '<' ∧ x ≠ '>' ∧ x ≠ '"'
  decodes : ∀ rest, unescapeChars ('&' :: cs ++ rest) = c :: unescapeChars rest

theorem escapeChar_cases (c : Char) :
    (escapeChar c = [c] ∧ c ≠ '&' ∧ c ≠ '<' ∧ c ≠ '>' ∧ c ≠ '"') ∨ ∃ cs, escapeChar c = '&' :: cs ∧ EntityOf c cs := by
  unfold escapeChar
  split
  · subst c
    exact .inr ⟨['a', 'm', 'p', ';'], rfl, by decide, by simp, fun _ => rfl⟩
  split
  · subst c
    exact .inr ⟨['l', 't', ';'], rfl, by decide, by simp, fun _ => rfl⟩
  split
  · subst c
    exact .inr ⟨['g', 't', ';'], rfl, by decide, by simp, fun _ => rfl⟩
  split
  · subst c
    exact .inr ⟨['q', 'u', 'o', 't', ';'], rfl, by decide, by simp, fun _ => rfl⟩
  · exact .inl ⟨rfl, ‹_›, ‹_›, ‹_›, ‹_›⟩

theorem safe_of_mem_escapeChar {x c : Char} (h : x ∈ escapeChar c) : x ≠ '<' ∧ x ≠ '>' ∧ x ≠ '"' := by
  obtain ⟨he, -, hsafe⟩ | ⟨cs, he, hcs⟩ := escapeChar_cases c
  · rw [he, List.mem_singleton] at h
    exact h ▸ hsafe
  · rw [he, List.mem_cons] at h
    rcases h with rfl | h
    · decide
    · exact (hcs.safe x h).2

theorem ampersand_of_escapeChar {c : Char} {before after : List Char} (h : escapeChar c = before ++ '&' :: after) :
    String.ofList ('&' :: after) ∈ entities := by
  have hmem : '&' ∈ escapeChar c := h ▸ List.mem_append_right _ List.mem_cons_self
  obtain ⟨he, hamp, -⟩ | ⟨cs, he, hcs⟩ := escapeChar_cases c
  · rw [he, List.mem_singleton] at hmem
    exact absurd hmem.symm hamp
  · rw [he] at h
    cases before with
    | nil =>
        obtain rfl := (List.cons.inj h).2
        exact hcs.mem
    | cons _ before =>
        have hin : '&' ∈ cs := (List.cons.inj h).2 ▸ List.mem_append_right _ List.mem_cons_self
        exact absurd rfl (hcs.safe '&' hin).1

theorem ampersand_of_escaped {cs before after : List Char} (h : cs.flatMap escapeChar = before ++ '&' :: after) :
    ∃ e ∈ entities, e.toList <+: '&' :: after := by
  induction cs generalizing before with
  | nil => simp at h
  | cons c cs ih =>
      rw [List.flatMap_cons, List.append_eq_append_iff] at h
      obtain ⟨rest, -, h⟩ | ⟨rest, h, hrest⟩ := h
      · exact ih h
      · cases rest with
        | nil => exact @ih [] hrest.symm
        | cons x rest =>
            obtain ⟨rfl, rfl⟩ := List.cons.inj hrest
            exact ⟨_, ampersand_of_escapeChar h, by simp⟩

theorem unescapeChars_cons {c : Char} (h : c ≠ '&') (cs : List Char) :
    unescapeChars (c :: cs) = c :: unescapeChars cs := by
  conv_lhs => unfold unescapeChars
  split <;> simp_all

theorem unescapeChars_escapeChar (c : Char) (cs : List Char) :
    unescapeChars (escapeChar c ++ cs) = c :: unescapeChars cs := by
  obtain ⟨he, hamp, -⟩ | ⟨entity, he, hentity⟩ := escapeChar_cases c
  · rw [he]
    exact unescapeChars_cons hamp cs
  · rw [he]
    exact hentity.decodes cs

theorem unescapeChars_escaped (cs : List Char) : unescapeChars (cs.flatMap escapeChar) = cs := by
  induction cs with
  | nil => rfl
  | cons c cs ih => rw [List.flatMap_cons, unescapeChars_escapeChar, ih]

theorem unescapeHtml_escapeHtml (s : String) : unescapeHtml (escapeHtml s) = s := by
  rw [unescapeHtml, toList_escapeHtml, unescapeChars_escaped, String.ofList_toList]

/-! ## Safe and lossless -/

/-- Escaped text has no character that ends a text or an attribute, each of its ampersands begins an entity, and
decoding the entities gives back the text. -/
theorem escapeHtml_safe_lossless :
    (∀ s : String, (∀ c ∈ (escapeHtml s).toList, c ≠ '<' ∧ c ≠ '>' ∧ c ≠ '"') ∧
      (∀ before after, (escapeHtml s).toList = before ++ '&' :: after → ∃ e ∈ entities, e.toList <+: '&' :: after) ∧
      unescapeHtml (escapeHtml s) = s) ∧ Function.Injective escapeHtml := by
  refine ⟨fun s => ⟨fun c hc => ?_, fun before after h => ?_, unescapeHtml_escapeHtml s⟩,
    Function.LeftInverse.injective unescapeHtml_escapeHtml⟩
  · rw [toList_escapeHtml] at hc
    obtain ⟨x, -, hx⟩ := List.mem_flatMap.mp hc
    exact safe_of_mem_escapeChar hx
  · rw [toList_escapeHtml] at h
    exact ampersand_of_escaped h

end CoachingCalendar.Auth
