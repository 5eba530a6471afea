import CoachingCalendar.Auth.System

/-! # What one operation does -/

namespace CoachingCalendar.Auth
open Lib Lib.Prog

variable {S : Services} {w w' : World} {o : Op} {ch : Choice} {r : Except Failure (Ans o)}

theorem writes_of_revocation {e : Event Ans Failure} {p : String × Int} (h : revocation e = some p) :
    writes e = true := by
  unfold revocation at h
  split at h
  · rfl
  · cases h

/-- What an operation does to the world. -/
inductive Change (S : Services) (w : World) : Event Ans Failure → World → Prop
  | same {e} : writes e = false → Change S w e w
  | sign {payload expiresIn} : Change S w ⟨.sign payload expiresIn, .ok (S.jwt.sign payload expiresIn w.clock)⟩
      { w with minted := w.minted ++ [⟨payload, expiresIn, w.clock⟩] }
  | mail {mail} : Change S w ⟨.sendReset mail, .ok ()⟩ { w with resets := w.resets ++ [mail] }
  | create {data coach coaches} : coach.sessionsRevokedAt = none → w.coaches.insert coach = some coaches →
      Change S w ⟨.coachCreate data, .ok coach⟩ { w with coaches }
  | update {id patch coach} : w.coaches.find id = some coach →
      Change S w ⟨.coachUpdate id patch, .ok (patch.apply coach)⟩
        { w with coaches := w.coaches.update id patch.apply patch.apply_id }

theorem NewCoach.toCoach_revokedAt {data : NewCoach} {id : String} {coach : Coach}
    (h : data.toCoach id = some coach) : coach.sessionsRevokedAt = none := by
  unfold toCoach at h
  split at h
  · cases h; rfl
  · cases h

theorem exec_change (h : exec S w o ch = (r, w')) : Change S w ⟨o, r⟩ w' := by
  cases o with
  | now => cases h; exact .same rfl
  | sign _ _ => cases h; exact .sign
  | coachFindByEmail email =>
      cases email with
      | none => cases h; exact .same rfl
      | some _ => rw [mayFail_frame h]; exact .same rfl
  | coachFindUnique id =>
      cases id with
      | none => cases h; exact .same rfl
      | some _ => rw [mayFail_frame h]; exact .same rfl
  | coachCreate data =>
      rcases mayFail_cases h with ⟨_, rfl, rfl⟩ | h
      · exact .same rfl
      · split at h
        · cases h; exact .same rfl
        · rename_i hc
          split at h
          · cases h; exact .same rfl
          · split at h
            · cases h; exact .same rfl
            · rename_i hi
              cases h; exact .create (NewCoach.toCoach_revokedAt hc) hi
  | coachUpdate id patch =>
      rcases mayFail_cases h with ⟨_, rfl, rfl⟩ | h
      · exact .same rfl
      · split at h
        · cases h; exact .same rfl
        · rename_i hf
          cases h; exact .update hf
  | compare _ _ => rw [mayFail_frame h]; exact .same rfl
  | hash _ => rw [mayFail_frame h]; exact .same rfl
  | sendReset _ =>
      rcases mayFail_cases h with ⟨_, rfl, rfl⟩ | h
      · exact .same rfl
      · cases h; exact .mail

theorem exec_clock (h : exec S w o ch = (r, w')) : w'.clock = w.clock := by
  cases exec_change h <;> rfl

theorem exec_coaches (h : exec S w o ch = (r, w')) (hw : writes ⟨o, r⟩ = false) : w'.coaches = w.coaches := by
  cases exec_change h with
  | create _ _ => cases hw
  | update _ => cases hw
  | same _ => rfl
  | sign => rfl
  | mail => rfl

theorem exec_minted (h : exec S w o ch = (r, w')) {m : Minted} (hm : m ∈ w'.minted) :
    m ∈ w.minted ∨ m.time = w.clock := by
  cases exec_change h with
  | sign =>
      rcases List.mem_append.mp hm with hm | hm
      · exact .inl hm
      · rw [List.mem_singleton.mp hm]
        exact .inr rfl
  | same _ => exact .inl hm
  | mail => exact .inl hm
  | create _ _ => exact .inl hm
  | update _ => exact .inl hm

theorem exec_stamp_of_revocation (h : exec S w o ch = (r, w')) {id : String} {revokedAt : Int}
    (hr : revocation ⟨o, r⟩ = some (id, revokedAt)) : stamp w'.coaches id = some revokedAt := by
  cases exec_change h with
  | update hf =>
      obtain ⟨_, hp, he⟩ := Option.map_eq_some_iff.mp hr
      cases he
      simp [stamp, Table.find_update, hf, CoachPatch.apply, hp]
  | same hw => rw [writes_of_revocation hr] at hw; cases hw
  | create _ _ => cases hr
  | sign => cases hr
  | mail => cases hr

theorem exec_stamp (h : exec S w o ch = (r, w')) {id : String}
    (hr : ∀ revokedAt, revocation ⟨o, r⟩ ≠ some (id, revokedAt)) : stamp w'.coaches id = stamp w.coaches id := by
  cases exec_change h with
  | create hn hi =>
      rw [stamp, stamp, Table.find_insert hi]
      split
      · rename_i hid
        rw [hid, (Table.insert_some hi).1]
        exact hn
      · rfl
  | @update id' patch coach hf =>
      rw [stamp, stamp, Table.find_update]
      split
      · rename_i hid
        subst hid
        have hp : patch.sessionsRevokedAt = none := by
          cases hp : patch.sessionsRevokedAt with
          | none => rfl
          | some R => exact absurd (by simp [revocation, hp]) (hr R)
        simp [hf, CoachPatch.apply, hp]
      · rfl
  | same _ => rfl
  | sign => rfl
  | mail => rfl

theorem exec_coach (h : exec S w o ch = (r, w')) {id : String} (hf : (w.coaches.find id).isSome) :
    (w'.coaches.find id).isSome := by
  obtain ⟨coach, hf⟩ := Option.isSome_iff_exists.mp hf
  cases exec_change h with
  | create _ hi => simp [Table.find_insert_of_some hi hf]
  | update _ => simp [Table.find_update_of_some _ _ hf]
  | same _ => simp [hf]
  | sign => simp [hf]
  | mail => simp [hf]

/-- The coach row that an operation returned. -/
def returnedCoach : Event Ans Failure → Option Coach
  | ⟨.coachFindByEmail _, .ok coach⟩ => coach
  | ⟨.coachCreate _, .ok coach⟩ => some coach
  | ⟨.coachUpdate _ _, .ok coach⟩ => some coach
  | _ => none

theorem exec_returnedCoach (h : exec S w o ch = (r, w')) {coach : Coach}
    (hc : returnedCoach ⟨o, r⟩ = some coach) : (w'.coaches.find coach.id).isSome := by
  cases o with
  | coachFindByEmail email =>
      cases email with
      | none => cases h; cases hc
      | some email =>
          rcases mayFail_cases h with ⟨_, rfl, _⟩ | h
          · cases hc
          · cases h
            have hmem : coach ∈ w.coaches := (Table.findFirst_some hc).1
            rw [Table.find_some.mpr ⟨hmem, rfl⟩]
            rfl
  | coachCreate data =>
      cases exec_change h with
      | same hw =>
          cases r with
          | ok _ => cases hw
          | error _ => cases hc
      | create _ hi =>
          cases hc
          rw [Table.find_insert hi, if_pos rfl]
          rfl
  | coachUpdate id patch =>
      cases exec_change h with
      | same hw =>
          cases r with
          | ok _ => cases hw
          | error _ => cases hc
      | @update _ _ row hf =>
          cases hc
          obtain rfl := Table.find_key hf
          exact exec_coach h (by rw [CoachPatch.apply_id, hf]; rfl)
  | _ => cases r <;> cases hc

theorem exec_signed {payload : Claims} {expiresIn : Int} {token : String}
    (h : exec S w (.sign payload expiresIn) ch = (.ok token, w')) :
    ⟨payload, expiresIn, w.clock⟩ ∈ w'.minted ∧ token = S.jwt.sign payload expiresIn w.clock := by
  cases h
  exact ⟨List.mem_append_right _ (List.mem_singleton.mpr rfl), rfl⟩

theorem exec_minted_subset (h : exec S w o ch = (r, w')) : w.minted ⊆ w'.minted := by
  cases exec_change h with
  | sign => exact List.subset_append_left ..
  | _ => exact List.Subset.refl _

end CoachingCalendar.Auth
