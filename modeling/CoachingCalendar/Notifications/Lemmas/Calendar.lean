import CoachingCalendar.Notifications.Calendar

/-! # What the two encodings say -/

namespace CoachingCalendar
open Lib

variable {U : LuxonUtc} {createEvent : EventAttributes → EventReturn}

/-! ## The attachment -/

theorem toUtcArray_toUtcTime (U : LuxonUtc) (t : Int) :
    (toUtcArray U t).toUtcTime = (U.fromJSDate t).toMinute := rfl

theorem buildIcsFile_ok {input : IcsInput} {file : String} (h : buildIcsFile U createEvent input = .ok file) :
    createEvent (input.attributes U) = ⟨none, some file⟩ := by
  unfold buildIcsFile at h
  generalize createEvent (input.attributes U) = ret at h
  obtain ⟨error, value⟩ := ret
  dsimp only at h
  split at h
  · rename_i v hv
    cases h
    rw [(Option.filter_eq_some_iff.mp hv).1]
  · cases h

/-- The attachment says the minute that an instant is in. -/
theorem icsInterval_buildIcsFile (hU : U.Reads) (hI : PrintsMinutes createEvent) {input : IcsInput} {file : String}
    (h : buildIcsFile U createEvent input = .ok file) : icsInterval file =
      some (input.startAt - input.startAt % msPerMinute, input.endAt - input.endAt % msPerMinute) := by
  have read : ∀ t, (toUtcArray U t).toUtcTime.Valid ∧
      (toUtcArray U t).toUtcTime.instant = t - t % msPerMinute := by
    intro t
    rw [toUtcArray_toUtcTime]
    exact ⟨(hU.valid t).toMinute, by rw [(hU.valid t).toMinute_instant, hU.instant]⟩
  obtain ⟨hstart, hend⟩ := hI _ file (buildIcsFile_ok h)
  rw [icsInterval, hstart rfl rfl (read _).1, hend rfl rfl (read _).1]
  exact congrArg some (Prod.ext (read input.startAt).2 (read input.endAt).2)

/-! ## The link -/

theorem stamp_slash (u : UtcTime) : '/' ∉ u.stamp := fun h => absurd (UtcTime.mem_stamp h) (by decide)

theorem render_query (l : List Char) :
    (("https://calendar.google.com/calendar/render?".toList ++ l).dropWhile (· ≠ '?')).drop 1 = l := by simp

theorem queryParam_dates (U : LuxonUtc) (input : QuickAddInput) :
    queryParam "dates" (buildGoogleCalendarQuickAddUrl U input) =
      some (toGoogleUtcStamp U input.startAt ++ "/" ++ toGoogleUtcStamp U input.endAt) := by
  unfold queryParam buildGoogleCalendarQuickAddUrl
  rw [String.toList_append, render_query, String.toList_ofList, FormUrlencoded.parse_serialize]
  simp [List.lookup_cons]

theorem toGoogleUtcStamp_toList (hU : U.Reads) (t : Int) :
    (toGoogleUtcStamp U t).toList = (U.fromJSDate t).stamp := by
  rw [toGoogleUtcStamp, hU.format _ (hU.valid t), String.toList_ofList]

/-- The link says the second that an instant is in. -/
theorem linkInterval_buildGoogleCalendarQuickAddUrl (hU : U.Reads) (input : QuickAddInput) :
    linkInterval (buildGoogleCalendarQuickAddUrl U input) =
      some (input.startAt - input.startAt % 1000, input.endAt - input.endAt % 1000) := by
  have read : ∀ t, UtcTime.readStamp (U.fromJSDate t).stamp = some (U.fromJSDate t).toSecond ∧
      (U.fromJSDate t).toSecond.instant = t - t % 1000 := by
    intro t
    exact ⟨UtcTime.readStamp_stamp (hU.valid t), by rw [(hU.valid t).toSecond_instant, hU.instant]⟩
  have hsplit : (toGoogleUtcStamp U input.startAt ++ "/" ++ toGoogleUtcStamp U input.endAt).toList.splitOn '/' =
      [(U.fromJSDate input.startAt).stamp, (U.fromJSDate input.endAt).stamp] := by
    rw [String.toList_append, String.toList_append, toGoogleUtcStamp_toList hU, toGoogleUtcStamp_toList hU,
      List.append_assoc]
    exact (List.splitOn_append_cons_self_of_not_mem (stamp_slash _) _).trans
      (congrArg _ (List.splitOn_eq_singleton (stamp_slash _)))
  rw [linkInterval, queryParam_dates]
  simp only [Option.bind_eq_bind, Option.bind_some, hsplit, (read _).1, (read _).2]
  rfl

/-! ## Packages to run examples with -/

def LuxonUtc.sample : LuxonUtc where
  fromJSDate := UtcTime.ofInstant
  toFormat u _ := String.ofList u.stamp

theorem LuxonUtc.sample_reads : LuxonUtc.sample.Reads :=
  ⟨UtcTime.ofInstant_valid, UtcTime.ofInstant_instant, fun _ _ => rfl⟩

/-- A line of a file. Line breaks in a value are dropped. -/
def icsLine (name : String) (value : List Char) : List Char :=
  name.toList ++ ':' :: value.filter (fun c => c ≠ '\n' && c ≠ '\r') ++ ['\r']

/-- The properties in the order of the package, without `DTSTAMP` and the persons. -/
def icsLines (a : EventAttributes) : List (List Char) := [
    icsLine "BEGIN" "VCALENDAR".toList, icsLine "VERSION" "2.0".toList, icsLine "BEGIN" "VEVENT".toList,
    icsLine "UID" a.uid.toList, icsLine "SUMMARY" a.title.toList, icsLine "DTSTART" a.start.toUtcTime.stamp,
    icsLine "DTEND" a.end.toUtcTime.stamp, icsLine "LOCATION" a.location.toList, icsLine "STATUS" a.status.toList,
    icsLine "END" "VEVENT".toList, icsLine "END" "VCALENDAR".toList]

def EventReturn.sample (a : EventAttributes) : EventReturn where
  error := none
  value := some (String.ofList (['\n'].intercalate (icsLines a)))

theorem stamp_printable {u : UtcTime} {c : Char} (h : c ∈ u.stamp) : c ≠ '\n' ∧ c ≠ '\r' := by
  constructor
  · rintro rfl
    exact absurd (UtcTime.mem_stamp h) (by decide)
  · rintro rfl
    exact absurd (UtcTime.mem_stamp h) (by decide)

theorem icsLine_stamp (name : String) (u : UtcTime) :
    icsLine name u.stamp = name.toList ++ ':' :: u.stamp ++ ['\r'] := by
  have h : (u.stamp.filter fun c => c ≠ '\n' && c ≠ '\r') = u.stamp :=
    List.filter_eq_self.mpr fun c hc => by simp [stamp_printable hc]
  rw [icsLine, h]

theorem icsLineValue_stamp (name : String) (u : UtcTime) :
    icsLineValue name (icsLine name u.stamp) = some u.stamp := by
  have hpre : (name.toList ++ [':']).isPrefixOf (icsLine name u.stamp) = true := by
    rw [icsLine_stamp, List.isPrefixOf_iff_prefix]
    exact ⟨u.stamp ++ ['\r'], by simp⟩
  have hdrop : (icsLine name u.stamp).drop (name.length + 1) = u.stamp ++ ['\r'] := by
    rw [icsLine_stamp, ← String.length_toList]
    simp
  have hfilter : (u.stamp ++ ['\r']).filter (· ≠ '\r') = u.stamp := by
    rw [List.filter_append, List.filter_eq_self.mpr fun c hc => by simp [stamp_printable hc]]
    simp
  rw [icsLineValue, if_pos hpre, hdrop, hfilter]

theorem icsLineValue_other (value : List Char) : ∀ name ∈ ["BEGIN", "VERSION", "UID", "SUMMARY"],
    icsLineValue "DTSTART" (icsLine name value) = none ∧ icsLineValue "DTEND" (icsLine name value) = none := by
  simp [icsLineValue, icsLine]

theorem icsLineValue_dtstart (value : List Char) : icsLineValue "DTEND" (icsLine "DTSTART" value) = none := by
  simp [icsLineValue, icsLine]

theorem icsProperty_sample (a : EventAttributes) :
    icsProperty "DTSTART" (String.ofList (['\n'].intercalate (icsLines a))) = some a.start.toUtcTime.stamp ∧
      icsProperty "DTEND" (String.ofList (['\n'].intercalate (icsLines a))) = some a.end.toUtcTime.stamp := by
  have hsplit : (['\n'].intercalate (icsLines a)).splitOn '\n' = icsLines a := by
    refine List.splitOn_intercalate _ ?_ (by simp [icsLines])
    simp only [icsLines, List.forall_mem_cons]
    simp [icsLine]
  have hb := fun value => icsLineValue_other value "BEGIN" (by simp)
  have hv := fun value => icsLineValue_other value "VERSION" (by simp)
  have hu := fun value => icsLineValue_other value "UID" (by simp)
  have hs := fun value => icsLineValue_other value "SUMMARY" (by simp)
  simp only [icsProperty, String.toList_ofList, hsplit]
  simp only [icsLines, List.findSome?_cons, hb, hv, hu, hs, icsLineValue_dtstart, icsLineValue_stamp, and_self]

theorem EventReturn.sample_printsMinutes : PrintsMinutes EventReturn.sample := by
  intro a file h
  cases h
  obtain ⟨hstart, hend⟩ := icsProperty_sample a
  constructor
  · intro _ _ hv
    simp only [icsTime, hstart, Option.bind_eq_bind, Option.bind_some, UtcTime.readStamp_stamp hv]
    rfl
  · intro _ _ hv
    simp only [icsTime, hend, Option.bind_eq_bind, Option.bind_some, UtcTime.readStamp_stamp hv]
    rfl

theorem buildIcsFile_sample (U : LuxonUtc) (input : IcsInput) :
    ∃ file, buildIcsFile U EventReturn.sample input = .ok file := by
  have hne : String.ofList (['\n'].intercalate (icsLines (input.attributes U))) ≠ "" := by
    intro h
    have := congrArg String.toList h
    simp [icsLines, icsLine] at this
  exact ⟨String.ofList (['\n'].intercalate (icsLines (input.attributes U))),
    by simp [buildIcsFile, EventReturn.sample, Option.filter, hne]⟩

end CoachingCalendar
