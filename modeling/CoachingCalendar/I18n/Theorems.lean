import CoachingCalendar.Bookings.Requests
import CoachingCalendar.I18n.Service
import CoachingCalendar.Notifications.Lemmas.Calendar
import CoachingCalendar.Notifications.Outward

/-!
# The program finds its words

Every text of a mail and of a refusal is in the language that it is asked for in, and no placeholder is left in it.
-/

namespace CoachingCalendar
open Lib Lib.Prog Lib.System

/-! ## Words -/

/-- The language of `locale` has the text, and every placeholder in it is given a value. -/
def Said (key : String) (locale : Option String) (vars : List (String × Var)) : Prop :=
  ∃ pieces, (resources (I18nService.resolveLocale locale)).lookup key = some pieces ∧
    ∀ name, .var name ∈ pieces → ∃ v, vars.lookup name = some v

/-- The language has the text, and nothing in it stays open but the names. -/
def Locale.has (l : Locale) (key : String) (names : List String) : Bool :=
  ((resources l).lookup key).any fun pieces => pieces.all fun piece =>
    match piece with
    | .text _ => true
    | .var name => names.contains name

instance (p : Locale → Prop) [DecidablePred p] : Decidable (∀ l, p l) :=
  decidable_of_iff (p .hu ∧ p .en) ⟨fun h l => by cases l; exacts [h.1, h.2], fun h => ⟨h .hu, h .en⟩⟩

theorem lookup_of_name {vars : List (String × Var)} {name : String} (h : name ∈ vars.map (·.1)) :
    ∃ v, vars.lookup name = some v := by
  obtain ⟨p, hp, rfl⟩ := List.mem_map.mp h
  exact Option.isSome_iff_exists.mp (List.lookup_isSome_iff.mpr ⟨p, hp, beq_self_eq_true _⟩)

/-! ## What the program asks for -/

/-- The texts of every mail, each with the names of the variables that come with it. -/
def commonTexts : List (String × List String) := [
  ("email.common.footer", []), ("email.common.detailsHeading", []), ("email.common.labelEventType", []),
  ("email.common.labelDateTime", []), ("email.common.labelDuration", []), ("email.common.labelLocation", []),
  ("email.common.labelPrice", []), ("email.common.free", []), ("email.common.minutes", ["count"]),
  ("email.common.locationInPerson", ["address"]), ("email.common.locationGoogleMeet", ["link"]),
  ("email.common.locationPhone", ["phone"]), ("email.common.buttonAddToGoogleCalendar", []),
  ("email.common.linkCancelBooking", []), ("email.common.linkRescheduleBooking", []),
  ("email.common.calendarUpdateHint", [])]

def scheduledTexts (kind : String) : List (String × List String) := [
  ("email." ++ kind ++ ".client.subject", ["title", "name", "clientName"]),
  ("email." ++ kind ++ ".client.preview", ["title", "name", "clientName"]),
  ("email." ++ kind ++ ".client.heading", []),
  ("email." ++ kind ++ ".client.intro", ["title", "name", "clientName"]),
  ("email." ++ kind ++ ".client.manageHint", []),
  ("email." ++ kind ++ ".coach.subject", ["title", "name", "clientName"]),
  ("email." ++ kind ++ ".coach.preview", ["title", "name", "clientName"]),
  ("email." ++ kind ++ ".coach.heading", []),
  ("email." ++ kind ++ ".coach.intro", ["title", "name", "clientName"])]

def cancelledTexts : List (String × List String) := [
  ("email.bookingCancelled.client.subject", ["title"]), ("email.bookingCancelled.client.preview", []),
  ("email.bookingCancelled.client.heading", []), ("email.bookingCancelled.client.introByClient", ["coachName"]),
  ("email.bookingCancelled.client.introByCoach", ["coachName"]), ("email.bookingCancelled.client.reasonLabel", []),
  ("email.bookingCancelled.client.rebookHint", []), ("email.bookingCancelled.coach.subject", ["title"]),
  ("email.bookingCancelled.coach.preview", []), ("email.bookingCancelled.coach.heading", []),
  ("email.bookingCancelled.coach.introByClient", ["clientName"]),
  ("email.bookingCancelled.coach.introByCoach", ["clientName"]), ("email.bookingCancelled.coach.reasonLabel", [])]

def refusalTexts : List (String × List String) := [
  ("errors.bookingNoticeWindow", ["hours"]), ("errors.bookingNotFound", []), ("errors.eventTypeNotFound", []),
  ("errors.locationNotOffered", []), ("errors.invalidStartAt", []), ("errors.pastStartAt", []),
  ("errors.bookingNotActive", []), ("errors.spanMultipleDays", []), ("errors.outsideAvailability", []),
  ("errors.slotJustBooked", []), ("errors.invalidDateRange", []), ("errors.rangeTooLong", ["days"])]

def askedTexts : List (String × List String) :=
  commonTexts ++ scheduledTexts "bookingConfirmed" ++ scheduledTexts "bookingRescheduled" ++ cancelledTexts ++
    refusalTexts

theorem has_askedTexts : ∀ l : Locale, ∀ x ∈ askedTexts, l.has x.1 x.2 = true := by decide +kernel

theorem said_of_asked {key : String} {locale : Option String} {vars : List (String × Var)}
    (h : (key, vars.map (·.1)) ∈ askedTexts) : Said key locale vars := by
  obtain ⟨pieces, hp, hall⟩ := (Option.any_eq_true _ _).mp (has_askedTexts (I18nService.resolveLocale locale) _ h)
  exact ⟨pieces, hp, fun name hname => lookup_of_name (by simpa using List.all_eq_true.mp hall _ hname)⟩

/-! ## Mails -/

/-- What the reader of the text gets is in the language of `locale`. -/
def Text.Spoken (locale : String) : Text → Prop
  | .translated key locale' vars => locale' = locale ∧ Said key (some locale) vars
  | .dateTime _ _ locale' => locale' = locale
  | _ => True

/-- i18next gives the text of the language, each placeholder replaced by a variable that it was given. -/
def Text.Filled (I : I18next) : Text → Prop
  | .translated key locale vars => ∃ pieces values,
      (resources (I18nService.resolveLocale (some locale))).lookup key = some pieces ∧
      (∀ name, .var name ∈ pieces → vars.lookup name = some (values name)) ∧
      I18nService.t I key (some locale) vars = String.join (pieces.map (Piece.fill values))
  | _ => True

theorem Text.Spoken.filled {I : I18next} (hI : I.Fills) {locale : String} {text : Text} (h : text.Spoken locale) :
    text.Filled I := by
  cases text with
  | translated key locale' vars =>
      obtain ⟨rfl, pieces, hp, hvars⟩ := h
      have given : ∀ name, .var name ∈ pieces → vars.lookup name = some ((vars.lookup name).getD (.str "")) := by
        intro name hname
        obtain ⟨v, hv⟩ := hvars name hname
        rw [hv, Option.getD_some]
      exact ⟨pieces, _, hp, given, hI.filled _ _ _ _ _ hp given⟩
  | _ => trivial

def BookingEmailDetail.texts (d : BookingEmailDetail) : List Text := [d.label, d.value]

/-- What the template shows of the properties, without what it takes as it is. -/
def BookingEmailProps.texts (props : BookingEmailProps) : List Text :=
  [props.previewText, props.heading, props.intro, props.detailsHeading, props.footer] ++
    (props.details ++ props.note.toList).flatMap BookingEmailDetail.texts ++ props.helperText.toList ++
    props.calendarNote.toList ++ (props.secondaryButton.toList ++ props.manageLinks.getD []).map (·.label)

def EmailContent.texts (content : EmailContent) : List Text := content.subject :: content.props.texts

def SendEmailInput.texts (email : SendEmailInput) : List Text := email.subject :: email.props.texts

section Mails

variable {ctx : EmailContext} {recipient : Recipient} {locale kind : String} {text : Text}

theorem spoken_common {key : String} {vars : List (String × Var)} (h : (key, vars.map (·.1)) ∈ commonTexts) :
    (Text.translated key locale vars).Spoken locale :=
  ⟨rfl, said_of_asked (by simp only [askedTexts, List.mem_append]; tauto)⟩

theorem spoken_cancelled {key : String} {vars : List (String × Var)} (h : (key, vars.map (·.1)) ∈ cancelledTexts) :
    (Text.translated key locale vars).Spoken locale :=
  ⟨rfl, said_of_asked (by simp only [askedTexts, List.mem_append]; tauto)⟩

theorem formatPriceHuf_spoken {priceHuf : Option Int} {freeLabel : Text} (hf : freeLabel.Spoken locale)
    (h : formatPriceHuf priceHuf locale freeLabel = some text) : text.Spoken locale := by
  unfold formatPriceHuf at h
  split at h
  · cases h
  · split at h
    · cases h
      exact hf
    · cases h
      trivial

theorem locationLabel_spoken : (EmailContentBuilder.locationLabel ctx locale).Spoken locale := by
  unfold EmailContentBuilder.locationLabel
  cases ctx.location with
  | inPerson => exact spoken_common (by simp [commonTexts])
  | googleMeet => exact spoken_common (by simp [commonTexts])
  | phone => exact spoken_common (by simp [commonTexts])

theorem buildDetails_spoken :
    ∀ d ∈ EmailContentBuilder.buildDetails ctx locale, d.label.Spoken locale ∧ d.value.Spoken locale := by
  intro d hd
  unfold EmailContentBuilder.buildDetails at hd
  rcases List.mem_append.mp hd with hd | hd
  · simp only [List.mem_cons, List.not_mem_nil, or_false] at hd
    rcases hd with rfl | rfl | rfl | rfl
    · exact ⟨spoken_common (by simp [commonTexts]), trivial⟩
    · exact ⟨spoken_common (by simp [commonTexts]), rfl⟩
    · exact ⟨spoken_common (by simp [commonTexts]), spoken_common (by simp [commonTexts])⟩
    · exact ⟨spoken_common (by simp [commonTexts]), locationLabel_spoken⟩
  · split at hd
    · rename_i price hprice
      obtain rfl := List.mem_singleton.mp hd
      exact ⟨spoken_common (by simp [commonTexts]),
        formatPriceHuf_spoken (spoken_common (by simp [commonTexts])) hprice⟩
    · cases hd

theorem buildManageLinks_spoken :
    ∀ link ∈ EmailContentBuilder.buildManageLinks ctx locale, link.label.Spoken locale := by
  intro link hl
  simp only [EmailContentBuilder.buildManageLinks, List.mem_cons, List.not_mem_nil, or_false] at hl
  rcases hl with rfl | rfl
  · exact spoken_common (by simp [commonTexts])
  · exact spoken_common (by simp [commonTexts])

/-- A mail is spoken when its own texts are, and those that it shares with the others. -/
theorem EmailContent.spoken {content : EmailContent}
    (hown : content.subject.Spoken locale ∧ content.props.previewText.Spoken locale ∧
      content.props.heading.Spoken locale ∧ content.props.intro.Spoken locale)
    (hframe : content.props.detailsHeading.Spoken locale ∧ content.props.footer.Spoken locale)
    (hdetails : ∀ d ∈ content.props.details ++ content.props.note.toList, d.label.Spoken locale ∧ d.value.Spoken locale)
    (hhints : ∀ text ∈ content.props.helperText.toList ++ content.props.calendarNote.toList, text.Spoken locale)
    (hlinks : ∀ link ∈ content.props.secondaryButton.toList ++ content.props.manageLinks.getD [],
      link.label.Spoken locale) :
    ∀ text ∈ content.texts, text.Spoken locale := by
  obtain ⟨hsubject, hpreview, hheading, hintro⟩ := hown
  intro text ht
  simp only [EmailContent.texts, BookingEmailProps.texts, BookingEmailDetail.texts, List.mem_cons, List.mem_append,
    List.mem_flatMap, List.mem_map, List.not_mem_nil, or_false] at ht
  rcases ht with rfl | ((((rfl | rfl | rfl | rfl | rfl) | ⟨d, hd, h⟩) | h) | h) | ⟨link, hl, rfl⟩
  · exact hsubject
  · exact hpreview
  · exact hheading
  · exact hintro
  · exact hframe.1
  · exact hframe.2
  · rcases h with rfl | rfl
    · exact (hdetails d (List.mem_append.mpr hd)).1
    · exact (hdetails d (List.mem_append.mpr hd)).2
  · exact hhints text (List.mem_append_left _ h)
  · exact hhints text (List.mem_append_right _ h)
  · exact hlinks link (List.mem_append.mpr hl)

theorem frame_spoken : (Text.translated "email.common.detailsHeading" locale).Spoken locale ∧
    (Text.translated "email.common.footer" locale).Spoken locale :=
  ⟨spoken_common (by simp [commonTexts]), spoken_common (by simp [commonTexts])⟩

theorem buildScheduledEmail_spoken (hk : kind = "bookingConfirmed" ∨ kind = "bookingRescheduled") :
    ∀ text ∈ (EmailContentBuilder.buildScheduledEmail ctx recipient locale kind).texts, text.Spoken locale := by
  have own : ∀ {key : String} {vars : List (String × Var)}, (key, vars.map (·.1)) ∈ scheduledTexts kind →
      (Text.translated key locale vars).Spoken locale := by
    intro key vars h
    refine ⟨rfl, said_of_asked ?_⟩
    simp only [askedTexts, List.mem_append]
    rcases hk with rfl | rfl <;> tauto
  have note : ∀ text ∈ (if kind = "bookingRescheduled" then
      some (Text.translated "email.common.calendarUpdateHint" locale) else none).toList, text.Spoken locale := by
    intro text ht
    split at ht
    · obtain rfl := List.mem_singleton.mp ht
      exact spoken_common (by simp [commonTexts])
    · cases ht
  have button : (Text.translated "email.common.buttonAddToGoogleCalendar" locale).Spoken locale :=
    spoken_common (by simp [commonTexts])
  have hint : ("email." ++ kind ++ ".client.manageHint", ([] : List (String × Var)).map (·.1)) ∈ scheduledTexts kind := by
    simp [scheduledTexts]
  cases recipient with
  | client =>
      refine EmailContent.spoken ⟨own ?_, own ?_, own ?_, own ?_⟩ frame_spoken ?_ ?_ ?_
      · simp [scheduledTexts]
      · simp [scheduledTexts]
      · simp [scheduledTexts]
      · simp [scheduledTexts]
      · simpa [EmailContentBuilder.buildScheduledEmail] using buildDetails_spoken
      · exact List.forall_mem_append.mpr ⟨List.forall_mem_singleton.mpr (own hint), note⟩
      · exact List.forall_mem_append.mpr ⟨List.forall_mem_singleton.mpr button, buildManageLinks_spoken⟩
  | coach =>
      refine EmailContent.spoken ⟨own ?_, own ?_, own ?_, own ?_⟩ frame_spoken ?_ ?_ ?_
      · simp [scheduledTexts]
      · simp [scheduledTexts]
      · simp [scheduledTexts]
      · simp [scheduledTexts]
      · simpa [EmailContentBuilder.buildScheduledEmail] using buildDetails_spoken
      · exact List.forall_mem_append.mpr ⟨List.forall_mem_nil _, note⟩
      · exact List.forall_mem_append.mpr ⟨List.forall_mem_singleton.mpr button, List.forall_mem_nil _⟩

theorem buildCancelled_spoken :
    ∀ text ∈ (EmailContentBuilder.buildCancelled ctx recipient locale).texts, text.Spoken locale := by
  have note : ∀ {label : Text}, label.Spoken locale → ∀ d ∈ ((ctx.cancellationReason.filter (· ≠ "")).map fun reason =>
      (⟨label, .text reason⟩ : BookingEmailDetail)).toList, d.label.Spoken locale ∧ d.value.Spoken locale := by
    intro label hl d hd
    obtain ⟨reason, -, rfl⟩ := Option.map_eq_some_iff.mp (Option.mem_toList.mp hd)
    exact ⟨hl, trivial⟩
  have choice : ∀ {byClient : Prop} [Decidable byClient] {key₁ key₂ : String} {vars : List (String × Var)},
      (key₁, vars.map (·.1)) ∈ cancelledTexts → (key₂, vars.map (·.1)) ∈ cancelledTexts →
      (Text.translated (if byClient then key₁ else key₂) locale vars).Spoken locale := by
    intro byClient _ key₁ key₂ vars h₁ h₂
    split
    · exact spoken_cancelled h₁
    · exact spoken_cancelled h₂
  have hint : (Text.translated "email.bookingCancelled.client.rebookHint" locale).Spoken locale :=
    spoken_cancelled (by simp [cancelledTexts])
  cases recipient with
  | client =>
      refine EmailContent.spoken ⟨spoken_cancelled ?_, spoken_cancelled ?_, spoken_cancelled ?_, choice ?_ ?_⟩
        frame_spoken (List.forall_mem_append.mpr ⟨buildDetails_spoken, note (spoken_cancelled ?_)⟩) ?_ ?_
      · simp [cancelledTexts]
      · simp [cancelledTexts]
      · simp [cancelledTexts]
      · simp [cancelledTexts]
      · simp [cancelledTexts]
      · simp [cancelledTexts]
      · exact List.forall_mem_append.mpr ⟨List.forall_mem_singleton.mpr hint, List.forall_mem_nil _⟩
      · exact List.forall_mem_append.mpr ⟨List.forall_mem_nil _, List.forall_mem_nil _⟩
  | coach =>
      refine EmailContent.spoken ⟨spoken_cancelled ?_, spoken_cancelled ?_, spoken_cancelled ?_, choice ?_ ?_⟩
        frame_spoken (List.forall_mem_append.mpr ⟨buildDetails_spoken, note (spoken_cancelled ?_)⟩) ?_ ?_
      · simp [cancelledTexts]
      · simp [cancelledTexts]
      · simp [cancelledTexts]
      · simp [cancelledTexts]
      · simp [cancelledTexts]
      · simp [cancelledTexts]
      · exact List.forall_mem_append.mpr ⟨List.forall_mem_nil _, List.forall_mem_nil _⟩
      · exact List.forall_mem_append.mpr ⟨List.forall_mem_nil _, List.forall_mem_nil _⟩

/-- It finds the text and fills it. -/
def I18next.sample : I18next where
  getFixedT l key vars :=
    (((resources l).lookup key).map fun pieces =>
      String.join (pieces.map (Piece.fill fun name => (vars.lookup name).getD (.str "")))).getD key

theorem I18next.sample_fills : I18next.sample.Fills where
  filled l key vars pieces values hp hvars := by
    simp only [sample, hp, Option.map_some, Option.getD_some]
    refine congrArg String.join (List.map_congr_left fun piece hpiece => ?_)
    cases piece with
    | text s => rfl
    | var name => simp only [Piece.fill, hvars name hpiece, Option.getD_some]

end Mails

end CoachingCalendar
