import CoachingCalendar.Lib.Sql
import CoachingCalendar.Store.Schema

/-!
# The migrations between one business and one business per coach

`prisma/migrations` from `add_tenant` to `merge_tenant_into_coach`. The scripts in between that only touch other tables
(`add_allowed_origin`, `add_booking_origin_url`) are left out.
-/

namespace CoachingCalendar.Migrations
open Lib

/-! ## Rows

The type of a column changes from script to script: `Unit` when there is no such column. -/

structure CoachRow (Role Tenant Site : Type) where
  id : String
  email : String
  passwordHash : String
  name : String
  preferredLocale : String
  role : Role
  sessionsRevokedAt : Option Int
  tenantId : Tenant
  frontendUrl : Site
  deriving DecidableEq, Repr

structure SettingsRow (Id Tenant Sender Brand : Type) where
  id : Id
  tenantId : Tenant
  businessAddress : String := ""
  cancellationNoticeHours : Int := 48
  businessTimezone : String := "Europe/Budapest"
  emailFrom : Sender
  brandName : Brand
  brandTagline : Brand
  deriving DecidableEq, Repr

structure GoogleIntegrationRow (Id Tenant : Type) where
  id : Id
  tenantId : Tenant
  refreshTokenEncrypted : String
  connectedEmail : String
  deriving DecidableEq, Repr

structure Tenant where
  id : String
  name : String
  deriving DecidableEq, Repr

/-- `CoachRole` with the value that is added and dropped again. -/
inductive TenantRole where
  | admin | coach | owner
  deriving DecidableEq, Repr

abbrev Coaches (Role Tenant Site : Type) := Table (CoachRow.id : CoachRow Role Tenant Site → String)

abbrev SettingsById (Tenant Sender : Type) := Table (SettingsRow.id : SettingsRow String Tenant Sender Unit → String)

abbrev SettingsByTenant (Brand : Type) :=
  Table (SettingsRow.tenantId : SettingsRow Unit String (Option String) Brand → String)

abbrev IntegrationsById (Tenant : Type) := Table (GoogleIntegrationRow.id : GoogleIntegrationRow String Tenant → String)

abbrev IntegrationsByTenant := Table (GoogleIntegrationRow.tenantId : GoogleIntegrationRow Unit String → String)

/-- The database before `add_tenant`. -/
structure DbBefore where
  coaches : Coaches CoachRole Unit Unit
  settings : SettingsById Unit Unit
  googleIntegrations : IntegrationsById Unit

/-- The tables after `merge_tenant_into_coach`. -/
structure DbAfter where
  coaches : Table Coach.id
  settings : Table Settings.coachId
  googleIntegrations : Table GoogleIntegration.coachId

/-! ## The scripts -/

/-- The row that `add_tenant` inserts into the new table. -/
def defaultTenants : Table Tenant.id := ⟨[⟨"default-tenant", "Betti Coaching"⟩], List.nodup_singleton _⟩

/-- `20261019103941_add_tenant`. -/
def addTenant (coaches : Coaches CoachRole Unit Unit) :
    Except SqlError (Table Tenant.id × Coaches CoachRole String Unit) := do
  let tenants := defaultTenants
  let coaches : Coaches CoachRole (Option String) Unit := coaches.alter (fun c => { c with tenantId := none }) fun _ => rfl
  let coaches : Coaches CoachRole (Option String) Unit := coaches.alter
    (fun c => { c with tenantId := some (c.tenantId.getD "default-tenant") }) fun _ => rfl
  let coaches : Coaches CoachRole String Unit ← coaches.alterColumn (.notNull "Coach.tenantId")
    (fun c => c.tenantId.map fun tenantId => { c with tenantId }) (by simp)
  checkForeignKey "Coach_tenantId_fkey" (·.tenantId) coaches.rows (tenants.rows.map (·.id))
  return (tenants, coaches)

def CoachRole.widen : CoachRole → TenantRole
  | .admin => .admin
  | .coach => .coach

/-- `20261019104933_add_owner_coach_role`. -/
def addOwnerCoachRole (coaches : Coaches CoachRole String Unit) : Coaches TenantRole String Unit :=
  coaches.alter (fun c => { c with role := CoachRole.widen c.role }) fun _ => rfl

/-- `20261019114858_settings_email_from`. -/
def settingsEmailFrom (settings : SettingsById Unit Unit) : SettingsById Unit (Option String) :=
  settings.alter (fun s => { s with emailFrom := none }) fun _ => rfl

/-- `20261019120000_settings_per_tenant`. -/
def settingsPerTenant (tenants : Table Tenant.id) (settings : SettingsById Unit (Option String)) :
    Except SqlError (SettingsByTenant Unit) := do
  let settings : SettingsById (Option String) (Option String) :=
    settings.alter (fun s => { s with tenantId := none }) fun _ => rfl
  let settings : SettingsById (Option String) (Option String) := settings.alter
    (fun s => { s with tenantId := some (s.tenantId.getD "default-tenant") }) fun _ => rfl
  let settings : SettingsById String (Option String) ← settings.alterColumn (.notNull "Settings.tenantId")
    (fun s => s.tenantId.map fun tenantId => { s with tenantId }) (by simp)
  let settings : SettingsByTenant Unit ← addPrimaryKey "Settings_pkey" SettingsRow.tenantId
    (settings.rows.map fun s => { s with id := () })
  checkForeignKey "Settings_tenantId_fkey" (·.tenantId) settings.rows (tenants.rows.map (·.id))
  return settings

/-- `20261019130000_google_integration_per_tenant`. -/
def googleIntegrationPerTenant (tenants : Table Tenant.id) (integrations : IntegrationsById Unit) :
    Except SqlError IntegrationsByTenant := do
  let integrations : IntegrationsById (Option String) :=
    integrations.alter (fun g => { g with tenantId := none }) fun _ => rfl
  let integrations : IntegrationsById (Option String) := integrations.alter
    (fun g => { g with tenantId := some (g.tenantId.getD "default-tenant") }) fun _ => rfl
  let integrations : IntegrationsById String ← integrations.alterColumn (.notNull "GoogleIntegration.tenantId")
    (fun g => g.tenantId.map fun tenantId => { g with tenantId }) (by simp)
  let integrations : IntegrationsByTenant ← addPrimaryKey "GoogleIntegration_pkey" GoogleIntegrationRow.tenantId
    (integrations.rows.map fun g => { g with id := () })
  checkForeignKey "GoogleIntegration_tenantId_fkey" (·.tenantId) integrations.rows (tenants.rows.map (·.id))
  return integrations

/-- `20261020184046_coach_frontend_url`. -/
def coachFrontendUrl (coaches : Coaches TenantRole String Unit) :
    Except SqlError (Coaches TenantRole String (Option String)) := do
  let coaches : Coaches TenantRole String (Option String) :=
    coaches.alter (fun c => { c with frontendUrl := none }) fun _ => rfl
  checkUnique "Coach_frontendUrl_key" (·.frontendUrl) coaches.rows
  return coaches

/-- `20261021085925_add_coach_email_branding`. -/
def addCoachEmailBranding (settings : SettingsByTenant Unit) : SettingsByTenant (Option String) :=
  settings.alter (fun s => { s with brandName := none, brandTagline := none }) fun _ => rfl

/-- `"role"::text::"CoachRole"`. -/
def TenantRole.cast : TenantRole → Option CoachRole
  | .admin => some .admin
  | .coach => some .coach
  | .owner => none

/-- The columns of a coach that stay. -/
def CoachRow.toCoach {Role Tenant : Type} (c : CoachRow Role Tenant (Option String)) (role : CoachRole) : Coach where
  id := c.id
  email := c.email
  passwordHash := c.passwordHash
  name := c.name
  preferredLocale := c.preferredLocale
  role := role
  sessionsRevokedAt := c.sessionsRevokedAt
  frontendUrl := c.frontendUrl

/-- `RENAME COLUMN "tenantId" TO "coachId"`. -/
def SettingsRow.toSettings (s : SettingsRow Unit String (Option String) (Option String)) : Settings where
  coachId := s.tenantId
  businessAddress := s.businessAddress
  cancellationNoticeHours := s.cancellationNoticeHours
  businessTimezone := s.businessTimezone
  emailFrom := s.emailFrom
  brandName := s.brandName
  brandTagline := s.brandTagline

/-- `RENAME COLUMN "tenantId" TO "coachId"`. -/
def GoogleIntegrationRow.toIntegration (g : GoogleIntegrationRow Unit String) : GoogleIntegration :=
  ⟨g.tenantId, g.refreshTokenEncrypted, g.connectedEmail⟩

@[simp] theorem CoachRow.toCoach_id {Role Tenant : Type} (c : CoachRow Role Tenant (Option String)) (role : CoachRole) :
    (c.toCoach role).id = c.id := rfl

@[simp] theorem SettingsRow.toSettings_coachId (s : SettingsRow Unit String (Option String) (Option String)) :
    s.toSettings.coachId = s.tenantId := rfl

@[simp] theorem GoogleIntegrationRow.toIntegration_coachId (g : GoogleIntegrationRow Unit String) :
    g.toIntegration.coachId = g.tenantId := rfl

/-- Which of the joined coaches the two updates of `merge_tenant_into_coach` take. -/
structure Picks where
  settings : SettingsRow Unit String (Option String) (Option String) → Nat
  integration : GoogleIntegrationRow Unit String → Nat

/-- `20261021090000_merge_tenant_into_coach`. -/
def mergeTenantIntoCoach (picks : Picks) (coaches : Coaches TenantRole String (Option String))
    (settings : SettingsByTenant (Option String)) (integrations : IntegrationsByTenant) : Except SqlError DbAfter := do
  let settings : SettingsByTenant (Option String) ← addPrimaryKey "Settings_pkey" SettingsRow.tenantId
    (settings.rows.map (updateFrom picks.settings (fun s c => c.tenantId = s.tenantId)
      (fun s c => { s with tenantId := c.id }) coaches.rows))
  let integrations : IntegrationsByTenant ← addPrimaryKey "GoogleIntegration_pkey" GoogleIntegrationRow.tenantId
    (integrations.rows.map (updateFrom picks.integration (fun g c => c.tenantId = g.tenantId)
      (fun g c => { g with tenantId := c.id }) coaches.rows))
  let settings : Table Settings.coachId := settings.alter SettingsRow.toSettings SettingsRow.toSettings_coachId
  let googleIntegrations : Table GoogleIntegration.coachId :=
    integrations.alter GoogleIntegrationRow.toIntegration GoogleIntegrationRow.toIntegration_coachId
  checkForeignKey "Settings_coachId_fkey" (·.coachId) settings.rows (coaches.rows.map (·.id))
  checkForeignKey "GoogleIntegration_coachId_fkey" (·.coachId) googleIntegrations.rows (coaches.rows.map (·.id))
  let coaches : Table Coach.id ← coaches.alterColumn (.cast "Coach.role") (fun c => (TenantRole.cast c.role).map c.toCoach)
    (by simp)
  return { coaches, settings, googleIntegrations }

/-- The scripts in their order. -/
def migrate (picks : Picks) (db : DbBefore) : Except SqlError DbAfter := do
  let (tenants, coaches) ← addTenant db.coaches
  let coaches := addOwnerCoachRole coaches
  let settings := settingsEmailFrom db.settings
  let settings ← settingsPerTenant tenants settings
  let integrations ← googleIntegrationPerTenant tenants db.googleIntegrations
  let coaches ← coachFrontendUrl coaches
  let settings := addCoachEmailBranding settings
  mergeTenantIntoCoach picks coaches settings integrations

end CoachingCalendar.Migrations
