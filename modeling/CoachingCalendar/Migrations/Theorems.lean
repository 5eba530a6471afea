import CoachingCalendar.Migrations.Scripts
import CoachingCalendar.Slots.Lemmas

/-! # Settings across the migrations -/

namespace CoachingCalendar.Migrations
open Lib Lib.Prog

variable {picks : Picks} {db : DbBefore} {after : DbAfter}

/-! ## What each script does -/

def CoachRow.inTenant {Role Tenant Site : Type} (c : CoachRow Role Tenant Site) : CoachRow Role String Site :=
  { c with tenantId := "default-tenant" }

def SettingsRow.inTenant {Id Tenant Sender Brand : Type} (s : SettingsRow Id Tenant Sender Brand) :
    SettingsRow Unit String Sender Brand :=
  { s with id := (), tenantId := "default-tenant" }

def GoogleIntegrationRow.inTenant {Id Tenant : Type} (g : GoogleIntegrationRow Id Tenant) :
    GoogleIntegrationRow Unit String :=
  { g with id := (), tenantId := "default-tenant" }

@[simp] theorem CoachRow.inTenant_id {Role Tenant Site : Type} (c : CoachRow Role Tenant Site) :
    c.inTenant.id = c.id := rfl

theorem addTenant_eq (coaches : Coaches CoachRole Unit Unit) :
    addTenant coaches = .ok (defaultTenants, coaches.alter CoachRow.inTenant CoachRow.inTenant_id) := by
  unfold addTenant
  dsimp only
  rw [Table.alterColumn_eq (g := CoachRow.inTenant) CoachRow.inTenant_id]
  · rw [bind_ok, checkForeignKey_ok.mpr (by simp [CoachRow.inTenant, -Table.mem_rows, defaultTenants]), bind_ok,
      pure_eq_ok]
    refine congrArg Except.ok (Prod.ext rfl (Table.ext_rows ?_))
    simp [CoachRow.inTenant]
  · simp [CoachRow.inTenant]

theorem settingsPerTenant_ok {settings : SettingsById Unit (Option String)} {t : SettingsByTenant Unit} :
    settingsPerTenant defaultTenants settings = .ok t ↔ t.rows = settings.rows.map SettingsRow.inTenant := by
  unfold settingsPerTenant
  dsimp only
  have hg : ∀ s : SettingsRow String (Option String) (Option String) Unit,
      ({ s with tenantId := "default-tenant" } : SettingsRow String String (Option String) Unit).id = s.id := fun _ => rfl
  rw [Table.alterColumn_eq hg (by simp), bind_ok]
  simp only [addPrimaryKey_bind, checkForeignKey_bind, Table.alter_rows, List.map_map]
  constructor
  · rintro ⟨t, ht, -, h⟩
    cases h
    exact ht
  · intro h
    refine ⟨t, h, ?_, rfl⟩
    simp [h, SettingsRow.inTenant, defaultTenants]

theorem googleIntegrationPerTenant_ok {integrations : IntegrationsById Unit} {t : IntegrationsByTenant} :
    googleIntegrationPerTenant defaultTenants integrations = .ok t ↔
      t.rows = integrations.rows.map GoogleIntegrationRow.inTenant := by
  unfold googleIntegrationPerTenant
  dsimp only
  have hg : ∀ g : GoogleIntegrationRow String (Option String),
      ({ g with tenantId := "default-tenant" } : GoogleIntegrationRow String String).id = g.id := fun _ => rfl
  rw [Table.alterColumn_eq hg (by simp), bind_ok]
  simp only [addPrimaryKey_bind, checkForeignKey_bind, Table.alter_rows, List.map_map]
  constructor
  · rintro ⟨t, ht, -, h⟩
    cases h
    exact ht
  · intro h
    refine ⟨t, h, ?_, rfl⟩
    simp [h, GoogleIntegrationRow.inTenant, defaultTenants]

theorem coachFrontendUrl_eq (coaches : Coaches TenantRole String Unit) : coachFrontendUrl coaches =
    .ok (coaches.alter (fun c => { c with frontendUrl := none }) fun _ => rfl) := by
  unfold coachFrontendUrl
  dsimp only
  rw [checkUnique_ok.mpr (by simp), bind_ok, pure_eq_ok]

/-- A coach before the merge. -/
def CoachRow.staged (c : CoachRow CoachRole Unit Unit) : CoachRow TenantRole String (Option String) :=
  { c.inTenant with role := CoachRole.widen c.role, frontendUrl := none }

def SettingsRow.staged (s : SettingsRow String Unit Unit Unit) : SettingsRow Unit String (Option String) (Option String) :=
  { s.inTenant with emailFrom := none, brandName := none, brandTagline := none }

/-- The id that the merge writes into a row of the tenant: that of a coach, when there is one. -/
def ownerOf (n : Nat) (coaches : List (CoachRow CoachRole Unit Unit)) : String :=
  ((coaches[n % coaches.length]?).map (·.id)).getD "default-tenant"

theorem ownerOf_mem {n : Nat} {coaches : List (CoachRow CoachRole Unit Unit)} (h : coaches ≠ []) :
    ∃ c ∈ coaches, ownerOf n coaches = c.id := by
  have hlt : n % coaches.length < coaches.length := Nat.mod_lt _ (List.length_pos_iff.mpr h)
  refine ⟨coaches[n % coaches.length], List.getElem_mem hlt, ?_⟩
  rw [ownerOf, List.getElem?_eq_getElem hlt]
  rfl

theorem updateFrom_owner {ρ : Type} {pick : ρ → Nat} {set : ρ → String → ρ} {tenantId : ρ → String} {r : ρ}
    (coaches : List (CoachRow CoachRole Unit Unit)) (h : tenantId r = "default-tenant")
    (hset : set r "default-tenant" = r) :
    updateFrom pick (fun r c => c.tenantId = tenantId r) (fun r c => set r c.id) (coaches.map CoachRow.staged) r =
      set r (ownerOf (pick r) coaches) := by
  rw [updateFrom_all (by simp [h, CoachRow.staged, CoachRow.inTenant]), List.length_map, List.getElem?_map, ownerOf]
  cases coaches[pick r % coaches.length]? with
  | none => exact hset.symm
  | some c => rfl

/-! ## The whole series -/

/-- A coach after the series. -/
def CoachRow.kept (c : CoachRow CoachRole Unit Unit) : Coach := c.staged.toCoach c.role

def SettingsRow.ownedBy (s : SettingsRow String Unit Unit Unit) (coachId : String) :
    SettingsRow Unit String (Option String) (Option String) :=
  { s.staged with tenantId := coachId }

def GoogleIntegrationRow.ownedBy (g : GoogleIntegrationRow String Unit) (coachId : String) :
    GoogleIntegrationRow Unit String :=
  { g.inTenant with tenantId := coachId }

/-- The result of the series. -/
structure Moved (picks : Picks) (db : DbBefore) (after : DbAfter) : Prop where
  coaches : after.coaches.rows = db.coaches.rows.map CoachRow.kept
  settings : after.settings.rows =
    (db.settings.rows.map fun s => s.ownedBy (ownerOf (picks.settings s.staged) db.coaches.rows)).map
      SettingsRow.toSettings
  integrations : after.googleIntegrations.rows =
    (db.googleIntegrations.rows.map fun g => g.ownedBy (ownerOf (picks.integration g.inTenant) db.coaches.rows)).map
      GoogleIntegrationRow.toIntegration
  ownedSettings : ∀ s ∈ after.settings.rows, s.coachId ∈ db.coaches.rows.map (·.id)
  ownedIntegrations : ∀ g ∈ after.googleIntegrations.rows, g.coachId ∈ db.coaches.rows.map (·.id)

theorem mergeTenantIntoCoach_ok {coaches : Coaches TenantRole String (Option String)}
    {settings : SettingsByTenant (Option String)} {integrations : IntegrationsByTenant}
    (hc : coaches.rows = db.coaches.rows.map CoachRow.staged)
    (hs : settings.rows = db.settings.rows.map SettingsRow.staged)
    (hg : integrations.rows = db.googleIntegrations.rows.map GoogleIntegrationRow.inTenant) :
    mergeTenantIntoCoach picks coaches settings integrations = .ok after ↔ Moved picks db after := by
  have hcast : ∀ c ∈ coaches.rows, ((TenantRole.cast c.role).map c.toCoach) =
      some (c.toCoach ((TenantRole.cast c.role).getD .coach)) := by
    rw [hc]
    rintro _ hmem
    obtain ⟨c, -, rfl⟩ := List.mem_map.mp hmem
    cases h : c.role <;> simp [CoachRow.staged, CoachRow.inTenant, h, CoachRole.widen, TenantRole.cast]
  have hkept : coaches.rows.map (fun c => c.toCoach ((TenantRole.cast c.role).getD .coach)) =
      db.coaches.rows.map CoachRow.kept := by
    rw [hc, List.map_map]
    refine List.map_congr_left fun c _ => ?_
    cases h : c.role <;> simp [CoachRow.kept, CoachRow.staged, CoachRow.inTenant, h, CoachRole.widen, TenantRole.cast]
  have hids : coaches.rows.map (·.id) = db.coaches.rows.map (·.id) := by
    rw [hc, List.map_map]
    rfl
  have hsettings : settings.rows.map (updateFrom picks.settings (fun s c => c.tenantId = s.tenantId)
      (fun s c => { s with tenantId := c.id }) coaches.rows) = db.settings.rows.map fun s =>
        s.ownedBy (ownerOf (picks.settings s.staged) db.coaches.rows) := by
    rw [hs, hc, List.map_map]
    exact List.map_congr_left fun s _ => @updateFrom_owner (SettingsRow Unit String (Option String) (Option String))
      picks.settings (fun s id => { s with tenantId := id }) SettingsRow.tenantId s.staged db.coaches.rows rfl rfl
  have hintegrations : integrations.rows.map (updateFrom picks.integration (fun g c => c.tenantId = g.tenantId)
      (fun g c => { g with tenantId := c.id }) coaches.rows) = db.googleIntegrations.rows.map fun g =>
        g.ownedBy (ownerOf (picks.integration g.inTenant) db.coaches.rows) := by
    rw [hg, hc, List.map_map]
    exact List.map_congr_left fun g _ => @updateFrom_owner (GoogleIntegrationRow Unit String)
      picks.integration (fun g id => { g with tenantId := id }) GoogleIntegrationRow.tenantId g.inTenant
      db.coaches.rows rfl rfl
  unfold mergeTenantIntoCoach
  rw [Table.alterColumn_eq (fun c => CoachRow.toCoach_id c _) hcast, hids, hsettings, hintegrations]
  simp only [addPrimaryKey_bind, checkForeignKey_bind, bind_ok, pure_eq_ok, Except.ok.injEq, Table.alter_rows]
  constructor
  · rintro ⟨s, hs', g, hg', hos, hog, rfl⟩
    exact ⟨hkept, congrArg _ hs', congrArg _ hg', hos, hog⟩
  · rintro ⟨hcoaches, hs', hg', hos, hog⟩
    have hsn := after.settings.nodup
    have hgn := after.googleIntegrations.nodup
    rw [hs', List.map_map] at hsn
    rw [hg', List.map_map] at hgn
    refine ⟨⟨_, hsn⟩, rfl, ⟨_, hgn⟩, rfl, hs' ▸ hos, hg' ▸ hog, ?_⟩
    obtain ⟨C, S, G⟩ := after
    exact (DbAfter.mk.injEq ..).mpr ⟨Table.ext_rows (hkept.trans hcoaches.symm), Table.ext_rows hs'.symm,
      Table.ext_rows hg'.symm⟩

theorem migrate_ok_iff : migrate picks db = .ok after ↔
    db.settings.rows.length ≤ 1 ∧ db.googleIntegrations.rows.length ≤ 1 ∧ Moved picks db after := by
  have hc : ((addOwnerCoachRole (db.coaches.alter CoachRow.inTenant CoachRow.inTenant_id)).alter
      (fun c => { c with frontendUrl := none }) fun _ => rfl : Coaches TenantRole String (Option String)).rows =
        db.coaches.rows.map CoachRow.staged := by
    simp only [addOwnerCoachRole, Table.alter_rows, List.map_map]
    rfl
  have hs : ∀ s : SettingsByTenant Unit, s.rows = (settingsEmailFrom db.settings).rows.map SettingsRow.inTenant →
      (addCoachEmailBranding s).rows = db.settings.rows.map SettingsRow.staged := by
    intro s h
    simp only [addCoachEmailBranding, Table.alter_rows, h, settingsEmailFrom, List.map_map]
    rfl
  unfold migrate
  simp only [addTenant_eq, coachFrontendUrl_eq, bind_ok, bind_eq_ok, settingsPerTenant_ok, googleIntegrationPerTenant_ok]
  constructor
  · rintro ⟨s, hs', g, hg', h⟩
    refine ⟨?_, ?_, (mergeTenantIntoCoach_ok hc (hs s hs') hg').mp h⟩
    · have hle := Table.length_le_one_of_key s.nodup (by simp [hs', SettingsRow.inTenant])
      simpa [hs', settingsEmailFrom] using hle
    · have hle := Table.length_le_one_of_key g.nodup (by simp [hg', GoogleIntegrationRow.inTenant])
      simpa [hg'] using hle
  · rintro ⟨hsle, hgle, h⟩
    obtain ⟨s, hs'⟩ := @exists_table _ _ SettingsRow.tenantId
      ((settingsEmailFrom db.settings).rows.map SettingsRow.inTenant) (by simpa [settingsEmailFrom] using hsle)
    obtain ⟨g, hg'⟩ := @exists_table _ _ GoogleIntegrationRow.tenantId
      (db.googleIntegrations.rows.map GoogleIntegrationRow.inTenant) (by simpa using hgle)
    exact ⟨s, hs', g, hg', (mergeTenantIntoCoach_ok hc (hs s hs') hg').mpr h⟩

/-! ## Settings -/

/-- The settings that apply to every coach before: those of the row, or the defaults. -/
def DbBefore.current (db : DbBefore) : SettingsRow String Unit Unit Unit :=
  db.settings.rows.head?.getD
    { id := "singleton", tenantId := (), emailFrom := (), brandName := (), brandTagline := () }

/-- The address, the notice and the timezone are the same. -/
def SettingsRow.Applies (s : SettingsRow String Unit Unit Unit) (settings : Settings) : Prop :=
  settings.businessAddress = s.businessAddress ∧ settings.cancellationNoticeHours = s.cancellationNoticeHours ∧
    settings.businessTimezone = s.businessTimezone

/-- The series ends well, and every coach then gets the settings that applied before. -/
def Preserved (picks : Picks) (db : DbBefore) : Prop :=
  ∃ after, migrate picks db = .ok after ∧ ∀ c ∈ db.coaches, ∀ (w : World) (env : Trace → Choice),
    w.db.coaches = after.coaches → w.db.settings = after.settings → (∀ t, (env t).fault = none) →
      ∃ settings w₁, Runs exec env (SettingsService.get c.id) w (.ok settings) w₁ ∧ db.current.Applies settings

/-- No table has two rows for the one tenant, a row finds a coach to belong to, and either it goes to the only coach
or says what the defaults say. -/
structure Preservable (db : DbBefore) : Prop where
  integration : db.googleIntegrations.rows.length ≤ 1
  someCoach : db.settings.rows ≠ [] ∨ db.googleIntegrations.rows ≠ [] → db.coaches.rows ≠ []
  same : ∀ s ∈ db.settings.rows, db.coaches.rows.length ≤ 1 ∨ s.Applies { coachId := "" }

/-- What `SettingsService.get` returns after the series. -/
def DbAfter.settingsOf (after : DbAfter) (coachId : String) : Settings :=
  (after.settings.find coachId).getD { coachId }

theorem get_runs {c : CoachRow CoachRole Unit Unit} {w : World} {env : Trace → Choice} (hm : Moved picks db after)
    (hc : c ∈ db.coaches) (hcoaches : w.db.coaches = after.coaches) (hsettings : w.db.settings = after.settings)
    (henv : ∀ t, (env t).fault = none) :
    ∃ w₁, Runs exec env (SettingsService.get c.id) w (.ok (after.settingsOf c.id)) w₁ := by
  have hmem : c.kept ∈ after.coaches := by
    rw [← Table.mem_rows, hm.coaches]
    exact List.mem_map_of_mem hc
  have hfind : after.coaches.find c.id = some c.kept := Table.find_some.mpr ⟨hmem, rfl⟩
  have hget : w.db.settingsOf c.id = some (after.settingsOf c.id) := by
    rw [Db.settingsOf, hcoaches, hsettings, hfind, Option.map_some, DbAfter.settingsOf]
  obtain ⟨w₁, h, -⟩ := SettingsService.get_runs henv hget
  exact ⟨w₁, h⟩

theorem preserved_iff_settingsOf : Preserved picks db ↔
    ∃ after, migrate picks db = .ok after ∧ ∀ c ∈ db.coaches, db.current.Applies (after.settingsOf c.id) := by
  constructor
  · rintro ⟨after, hok, h⟩
    refine ⟨after, hok, fun c hc => ?_⟩
    obtain ⟨-, -, hm⟩ := migrate_ok_iff.mp hok
    obtain ⟨w, hcoaches, hsettings⟩ : ∃ w : World, w.db.coaches = after.coaches ∧ w.db.settings = after.settings :=
      ⟨{ db := { Db.sample with coaches := after.coaches, settings := after.settings }, clock := 0 }, rfl, rfl⟩
    obtain ⟨settings, w₂, hruns', happ⟩ := h c hc w (fun _ => {}) hcoaches hsettings fun _ => rfl
    obtain ⟨w₁, hruns⟩ := @get_runs _ _ _ _ _ (fun _ => {}) hm hc hcoaches hsettings fun _ => rfl
    cases (hruns []).1.symm.trans (hruns' []).1
    exact happ
  · rintro ⟨after, hok, h⟩
    obtain ⟨-, -, hm⟩ := migrate_ok_iff.mp hok
    refine ⟨after, hok, fun c hc w env hcoaches hsettings henv => ?_⟩
    obtain ⟨w₁, hruns⟩ := get_runs hm hc hcoaches hsettings henv
    exact ⟨_, w₁, hruns, h c hc⟩

theorem Moved.settingsOf_none (hm : Moved picks db after) (h : db.settings.rows = []) (coachId : String) :
    after.settingsOf coachId = { coachId } := by
  have hrows := hm.settings
  rw [h] at hrows
  rw [DbAfter.settingsOf, Table.find, hrows]
  rfl

/-- The row belongs to one coach, and the others get the defaults. -/
theorem Moved.settingsOf_row {s : SettingsRow String Unit Unit Unit} (hm : Moved picks db after)
    (h : db.settings.rows = [s]) (coachId : String) : after.settingsOf coachId =
      if ownerOf (picks.settings s.staged) db.coaches.rows = coachId then (s.ownedBy coachId).toSettings
      else { coachId } := by
  have hrows := hm.settings
  rw [h, List.map_singleton, List.map_singleton] at hrows
  rw [DbAfter.settingsOf, Table.find, hrows, List.find?_singleton]
  by_cases howner : ownerOf (picks.settings s.staged) db.coaches.rows = coachId
  · subst howner
    rw [if_pos rfl, if_pos (by simp [SettingsRow.ownedBy])]
    rfl
  · rw [if_neg howner, if_neg (by simp [SettingsRow.ownedBy, howner])]
    rfl

theorem exists_moved (hs : db.settings.rows.length ≤ 1) (hg : db.googleIntegrations.rows.length ≤ 1)
    (hc : db.settings.rows ≠ [] ∨ db.googleIntegrations.rows ≠ [] → db.coaches.rows ≠ []) :
    ∃ after, Moved picks db after := by
  have owned : ∀ n, db.coaches.rows ≠ [] → ownerOf n db.coaches.rows ∈ db.coaches.rows.map (·.id) := by
    intro n hne
    obtain ⟨c, hmem, he⟩ := @ownerOf_mem n _ hne
    exact he ▸ List.mem_map_of_mem hmem
  obtain ⟨settings, hsettings⟩ := @exists_table _ _ Settings.coachId
    ((db.settings.rows.map fun s => s.ownedBy (ownerOf (picks.settings s.staged) db.coaches.rows)).map
      SettingsRow.toSettings) (by simpa using hs)
  obtain ⟨integrations, hintegrations⟩ := @exists_table _ _ GoogleIntegration.coachId
    ((db.googleIntegrations.rows.map fun g => g.ownedBy (ownerOf (picks.integration g.inTenant) db.coaches.rows)).map
      GoogleIntegrationRow.toIntegration) (by simpa using hg)
  refine ⟨⟨db.coaches.alter CoachRow.kept fun _ => rfl, settings, integrations⟩, rfl, hsettings, hintegrations, ?_, ?_⟩
  · intro r hr
    rw [hsettings, List.map_map] at hr
    obtain ⟨s, hmem, rfl⟩ := List.mem_map.mp hr
    exact owned _ (hc (.inl (List.ne_nil_of_mem hmem)))
  · intro r hr
    rw [hintegrations, List.map_map] at hr
    obtain ⟨g, hmem, rfl⟩ := List.mem_map.mp hr
    exact owned _ (hc (.inr (List.ne_nil_of_mem hmem)))

theorem DbBefore.current_row {s : SettingsRow String Unit Unit Unit} (h : db.settings.rows = [s]) : db.current = s := by
  rw [DbBefore.current, h]
  rfl

theorem eq_singleton {α : Type} {l : List α} {a : α} (h : l.length ≤ 1) (ha : a ∈ l) : l = [a] := by
  obtain ⟨b, rfl⟩ := List.length_eq_one_iff.mp (Nat.le_antisymm h (List.length_pos_of_mem ha))
  rw [List.mem_singleton.mp ha]

/-- The series keeps the settings of every coach exactly when they can be kept. -/
theorem settings_preserved_iff (hs : db.settings.rows.length ≤ 1) : Preserved picks db ↔ Preservable db := by
  rw [preserved_iff_settingsOf]
  constructor
  · rintro ⟨after, hok, h⟩
    obtain ⟨-, hg, hm⟩ := migrate_ok_iff.mp hok
    have coaches_ne : ∀ {coachId}, coachId ∈ db.coaches.rows.map (·.id) → db.coaches.rows ≠ [] := fun hmem he => by
      rw [he] at hmem
      cases hmem
    refine ⟨hg, ?_, fun s hmem => or_iff_not_imp_left.mpr fun htwo => ?_⟩
    · rintro (hne | hne)
      · obtain ⟨s, hmem⟩ := List.exists_mem_of_ne_nil _ hne
        exact coaches_ne (hm.ownedSettings _ (hm.settings ▸ List.mem_map_of_mem (List.mem_map_of_mem hmem)))
      · obtain ⟨g, hmem⟩ := List.exists_mem_of_ne_nil _ hne
        exact coaches_ne (hm.ownedIntegrations _ (hm.integrations ▸ List.mem_map_of_mem (List.mem_map_of_mem hmem)))
    · have hrow := eq_singleton hs hmem
      -- another coach than the owner of the row
      obtain ⟨c, hc, hother⟩ : ∃ c ∈ db.coaches.rows, ownerOf (picks.settings s.staged) db.coaches.rows ≠ c.id := by
        by_contra hall
        push Not at hall
        exact htwo (Table.length_le_one_of_key db.coaches.nodup fun c hc c' hc' => (hall c hc).symm.trans (hall c' hc'))
      have happ := h c hc
      rwa [hm.settingsOf_row hrow, if_neg hother, DbBefore.current_row hrow] at happ
  · rintro ⟨hg, hc, hsame⟩
    obtain ⟨after, hm⟩ := @exists_moved picks db hs hg hc
    refine ⟨after, migrate_ok_iff.mpr ⟨hs, hg, hm⟩, fun c hmem => ?_⟩
    by_cases hnone : db.settings.rows = []
    · rw [hm.settingsOf_none hnone, DbBefore.current, hnone]
      exact ⟨rfl, rfl, rfl⟩
    · obtain ⟨s, hs'⟩ := List.exists_mem_of_ne_nil _ hnone
      have hrow := eq_singleton hs hs'
      rw [hm.settingsOf_row hrow, DbBefore.current_row hrow]
      split
      · exact ⟨rfl, rfl, rfl⟩
      · rename_i hother
        rcases hsame s hs' with hone | happ
        · -- the only coach is the owner
          obtain ⟨c', hc', howner⟩ := @ownerOf_mem (picks.settings s.staged) _ (List.ne_nil_of_mem hmem)
          rw [eq_singleton hone hmem, List.mem_singleton] at hc'
          exact absurd (hc' ▸ howner) hother
        · exact happ

/-! ### One coach, and two -/

def CoachRow.sample (id : String) : CoachRow CoachRole Unit Unit :=
  ⟨id, id ++ "@example.com", "hash", "Coach", "hu", .coach, none, (), ()⟩

/-- A business in Vienna with a notice of one day. -/
def DbBefore.vienna (coaches : Coaches CoachRole Unit Unit) : DbBefore where
  coaches := coaches
  settings := ⟨[⟨"singleton", (), "Ring 1", 24, "Europe/Vienna", (), (), ()⟩], List.nodup_singleton _⟩
  googleIntegrations := .empty

def Picks.first : Picks := ⟨fun _ => 0, fun _ => 0⟩

theorem settings_preserved_iff_single : Preserved .first (.vienna ⟨[.sample "c1"], by decide⟩) :=
  (settings_preserved_iff (by decide)).mpr
    ⟨by decide, fun _ => by simp [DbBefore.vienna], fun _ _ => .inl (by decide)⟩

/-- The second of two coaches loses the settings. -/
theorem settings_not_preserved : ¬ ∀ (picks : Picks) (db : DbBefore), db.settings.rows.length ≤ 1 →
    db.googleIntegrations.rows.length ≤ 1 → db.coaches.rows ≠ [] → Preserved picks db := by
  intro hall
  obtain ⟨after, hok, h⟩ := preserved_iff_settingsOf.mp
    (hall .first (.vienna ⟨[.sample "c1", .sample "c2"], by decide⟩) (by decide) (by decide) (by simp [DbBefore.vienna]))
  obtain ⟨-, -, hm⟩ := migrate_ok_iff.mp hok
  obtain ⟨haddress, -⟩ := h (.sample "c2") (by simp [DbBefore.vienna, ← Table.mem_rows])
  rw [hm.settingsOf_row rfl, DbBefore.current_row rfl] at haddress
  revert haddress
  decide

end CoachingCalendar.Migrations
