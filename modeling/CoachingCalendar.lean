import CoachingCalendar.Lib.Base64
import CoachingCalendar.Lib.Checks
import CoachingCalendar.Lib.Combine
import CoachingCalendar.Lib.Failures
import CoachingCalendar.Lib.FormUrlencoded
import CoachingCalendar.Lib.IsoDate
import CoachingCalendar.Lib.Ledger
import CoachingCalendar.Lib.License
import CoachingCalendar.Lib.Loop
import CoachingCalendar.Lib.Parts
import CoachingCalendar.Lib.Pool
import CoachingCalendar.Lib.Prog
import CoachingCalendar.Lib.Purge
import CoachingCalendar.Lib.Replace
import CoachingCalendar.Lib.Sorting
import CoachingCalendar.Lib.Sql
import CoachingCalendar.Lib.Table
import CoachingCalendar.Lib.Tally
import CoachingCalendar.Lib.Twin
import CoachingCalendar.Lib.UpTo
import CoachingCalendar.Lib.UtcTime
import CoachingCalendar.Lib.WallClock
import CoachingCalendar.Common.Crypto
import CoachingCalendar.Common.Responses
import CoachingCalendar.Common.SerializableTransaction
import CoachingCalendar.Store.Lemmas
import CoachingCalendar.Store.Operations
import CoachingCalendar.Store.Platform
import CoachingCalendar.Store.Schema
import CoachingCalendar.Availability.Lemmas
import CoachingCalendar.Availability.Service
import CoachingCalendar.Availability.Theorems
import CoachingCalendar.Availability.Walk
import CoachingCalendar.Slots.Clocks
import CoachingCalendar.Slots.Dates
import CoachingCalendar.Slots.Exact
import CoachingCalendar.Slots.Grid
import CoachingCalendar.Slots.Lemmas
import CoachingCalendar.Slots.Reschedule
import CoachingCalendar.Slots.Service
import CoachingCalendar.Slots.Taken
import CoachingCalendar.Slots.Theorems
import CoachingCalendar.Slots.Walk
import CoachingCalendar.Bookings.Authority
import CoachingCalendar.Bookings.Changes
import CoachingCalendar.Bookings.Conditions
import CoachingCalendar.Bookings.Lemmas.Atomic
import CoachingCalendar.Bookings.Lemmas.Basis
import CoachingCalendar.Bookings.Lemmas.Checks
import CoachingCalendar.Bookings.Lemmas.Cleanup
import CoachingCalendar.Bookings.Lemmas.Exclusive
import CoachingCalendar.Bookings.Lemmas.Final
import CoachingCalendar.Bookings.Lemmas.Meet
import CoachingCalendar.Bookings.Lemmas.Notices
import CoachingCalendar.Bookings.Lemmas.Protocol
import CoachingCalendar.Bookings.Lemmas.Reading
import CoachingCalendar.Bookings.Lemmas.Reschedule
import CoachingCalendar.Bookings.Lemmas.Rows
import CoachingCalendar.Bookings.Lemmas.Scope
import CoachingCalendar.Bookings.Lemmas.Standing
import CoachingCalendar.Bookings.Offer
import CoachingCalendar.Bookings.Placement
import CoachingCalendar.Bookings.Reading
import CoachingCalendar.Bookings.Requests
import CoachingCalendar.Bookings.Schedule
import CoachingCalendar.Bookings.ServerZone
import CoachingCalendar.Bookings.Service
import CoachingCalendar.Bookings.System
import CoachingCalendar.Bookings.Theorems
import CoachingCalendar.Bookings.WellFormed
import CoachingCalendar.Jobs.Delivery
import CoachingCalendar.Jobs.Lemmas.Announce
import CoachingCalendar.Jobs.Lemmas.Attempt
import CoachingCalendar.Jobs.Service
import CoachingCalendar.Auth.Conditions
import CoachingCalendar.Auth.Html
import CoachingCalendar.Auth.Lemmas.Protocol
import CoachingCalendar.Auth.Lemmas.Resets
import CoachingCalendar.Auth.Lemmas.Runs
import CoachingCalendar.Auth.Lemmas.Steps
import CoachingCalendar.Auth.Lemmas.Tokens
import CoachingCalendar.Auth.Mail
import CoachingCalendar.Auth.Requests
import CoachingCalendar.Auth.Service
import CoachingCalendar.Auth.System
import CoachingCalendar.Auth.Theorems
import CoachingCalendar.Auth.Token
import CoachingCalendar.Origins.Lemmas
import CoachingCalendar.Origins.Service
import CoachingCalendar.Origins.Theorems
import CoachingCalendar.Access.Authority
import CoachingCalendar.Access.Connections
import CoachingCalendar.Access.Invites
import CoachingCalendar.Access.Lemmas.Policy
import CoachingCalendar.Access.Lemmas.Runs
import CoachingCalendar.Access.Lemmas.Steps
import CoachingCalendar.Access.Lemmas.Tokens
import CoachingCalendar.Access.Links
import CoachingCalendar.Access.Policy
import CoachingCalendar.Access.Service
import CoachingCalendar.Access.Strangers
import CoachingCalendar.Access.System
import CoachingCalendar.Notifications.Audience
import CoachingCalendar.Notifications.Calendar
import CoachingCalendar.Notifications.Content
import CoachingCalendar.Notifications.Events
import CoachingCalendar.Notifications.Lemmas.Calendar
import CoachingCalendar.Notifications.Lemmas.Mails
import CoachingCalendar.Notifications.Lemmas.Outward
import CoachingCalendar.Notifications.Outward
import CoachingCalendar.Notifications.System
import CoachingCalendar.Notifications.Theorems
import CoachingCalendar.I18n.Refusals
import CoachingCalendar.I18n.Service
import CoachingCalendar.I18n.Theorems
import CoachingCalendar.Dashboard.Catalogue
import CoachingCalendar.Dashboard.Lemmas.Blind
import CoachingCalendar.Dashboard.Lemmas.Catalogue
import CoachingCalendar.Dashboard.Lemmas.Isolation
import CoachingCalendar.Dashboard.Lemmas.Keeps
import CoachingCalendar.Dashboard.Lemmas.Owners
import CoachingCalendar.Dashboard.Lemmas.Patch
import CoachingCalendar.Dashboard.Lemmas.Settled
import CoachingCalendar.Dashboard.Lemmas.Statements
import CoachingCalendar.Dashboard.Lemmas.Unseen
import CoachingCalendar.Dashboard.Lemmas.Usable
import CoachingCalendar.Dashboard.Noninterference
import CoachingCalendar.Dashboard.Owners
import CoachingCalendar.Dashboard.Service
import CoachingCalendar.Dashboard.Statements
import CoachingCalendar.Dashboard.System
import CoachingCalendar.Dashboard.Theorems
import CoachingCalendar.Migrations.Scripts
import CoachingCalendar.Migrations.Theorems
