import MessageBus.Connection.Requests
import MessageBus.Proofs.Connection.OpenPlays
import MessageBus.Proofs.Message.RoundTrip

/-! # Requests and what confirms them

    To copy a text, to open an address or to show a notification is the same
    exchange: one message goes out, and the first confirmation that names the
    participant ends the wait for it.  Which of its requests a confirmation
    answers is not looked at.  So one that comes late, or waited in the queue
    before the request was made, ends the next exchange of its kind.

    * `ends_of_play`: what was sent and heard when an exchange ends.
    * `notification_acknowledged`: how a notification ends, along every run.
    * `takes_waiting_acknowledgement`: the next notification takes what waits. -/

namespace MessageBus.Request

open Program

/-! ## Exchanges -/

/-- Sends a message, waits for what confirms it, and gives a result. -/
def exchange {α : Type} (m : Message) (limit : Nat) (what : String) (confirms : Message → Bool)
    (result : α) : Task BusError α := do
  Task.send m
  let _ ← Task.waitFor limit what confirms
  return result

/-- How an exchange ends.  It succeeds with the first confirmation, which is the last envelope that
is taken, and it fails without one. -/
def Ends {α : Type} (contents : Fields) (confirms : Message → Bool) (result : α)
    (calls : List Call) (heard : List Envelope) : BusResult α → Prop
  | .ok a => a = result ∧ calls = [.send contents] ∧ ∃ before e, heard = before ++ [e] ∧
      e.isAccepted confirms = true ∧ ∀ b ∈ before, b.isAccepted confirms = false
  | .error _ => ∀ e ∈ heard, e.isAccepted confirms = false

variable {α : Type} {id : String} {m : Message} {limit : Nat} {what : String}
  {confirms : Message → Bool} {result : α} {r : BusResult α} {replies : List Reply}
  {calls : List Call}

theorem remoteCopy_eq_exchange (id data : String) :
    remoteCopy id data = exchange (.copyData data) copyLimit "DataCopied" (isCopied id) () := rfl

theorem openUrl_eq_exchange (id url : String) :
    openUrl id url = exchange (.openUrl url) openUrlLimit "URLOpened" (isOpened id) () := rfl

/-- A notification is an exchange once it has an id. -/
theorem run_notify (id : String) (n : Notification) :
    (notify id n).run = .freshId "notify" fun note =>
      (exchange (.notification note n.text n.level n.url) notifyLimit "NotificationDisplayed"
        (isDisplayed id) note).run := rfl

theorem run_exchange (m : Message) (limit : Nat) (what : String) (confirms : Message → Bool)
    (result : α) :
    (exchange m limit what confirms result).run =
      .queue m.toFields fun
        | .ok _ => .await (some limit) confirms fun
          | .matched _ => .done (.ok result)
          | .timedOut =>
            .done (.error (.timeout ("no " ++ what ++ " within " ++ Text.duration limit)))
          | .closed => .done (.error .closed)
        | .error e => .done (.error e) := by
  apply queue_congr
  · exact await_congr (fun _ => rfl) rfl rfl
  · exact fun _ => rfl

/-- The plays of an exchange. -/
theorem ends_of_play
    (h : (exchange m limit what confirms result).run.play replies = some (calls, .done r)) :
    Ends m.toFields confirms result calls (replies.filterMap Reply.envelope?) r := by
  rw [run_exchange, play_queue_iff] at h
  obtain ⟨replies', calls', rfl, hplay, rfl⟩ | ⟨replies', rfl, hplay⟩ := h
  · obtain ⟨front, w, rest, hwaits, rfl, hrest⟩ := play_await_iff.mp hplay
    -- only a wait that ends with a confirmation is followed by a success
    cases hwaits with
    | @matched before e m' hbefore hmessage hconfirms =>
      obtain ⟨rfl, rfl, rfl⟩ := play_done_iff.mp hrest
      have haccepted := Envelope.isAccepted_iff.mpr ⟨m', hmessage, hconfirms⟩
      refine ⟨rfl, rfl, before, e, ?_, haccepted, hbefore⟩
      simp [Reply.envelope?, List.filterMap_cons]
    | timedOut hbefore | closed hbefore =>
      obtain ⟨rfl, rfl, rfl⟩ := play_done_iff.mp hrest
      simpa [Ends, Reply.envelope?, List.filterMap_cons] using hbefore
  · -- nothing is heard if the message is not even queued
    obtain ⟨rfl, rfl, rfl⟩ := play_done_iff.mp hplay
    simp [Ends, Reply.envelope?]

/-! ## Notifications -/

variable {e : Envelope}

theorem isAccepted_isDisplayed_iff :
    e.isAccepted (isDisplayed id) = true ↔
      ∃ noted level, e.message = .ok (.notificationDisplayed id noted level) := by
  rw [Envelope.isAccepted_iff]
  constructor
  · rintro ⟨m, hmessage, hdisplayed⟩
    cases m <;> simp [isDisplayed] at hdisplayed
    rw [hmessage, hdisplayed]
    exact ⟨_, _, rfl⟩
  · rintro ⟨noted, level, hmessage⟩
    exact ⟨_, hmessage, by simp [isDisplayed]⟩

/-- An acknowledgement that waits in the queue is taken for that of the next notification. -/
theorem takes_waiting_acknowledgement {c : Connection} {rest : List Envelope} (n : Notification)
    (note : String) (hin : c.inbound = e :: rest) (hopen : c.isStopped = false)
    (hroom : c.hasOutboundRoom = true) (he : e.isAccepted (isDisplayed id) = true) :
    ∃ journal p, Caller.Runs (.start c (notify id n).run) journal p ∧
      p.program = .done (.ok note) ∧ Caller.heard journal = [e] := by
  obtain ⟨m, hmessage, hconfirms⟩ := Envelope.isAccepted_iff.mp he
  let shown := Message.notification note n.text n.level n.url
  let shows := (exchange shown notifyLimit "NotificationDisplayed" (isDisplayed id) note).run
  let queued : Connection := { c with outbound := c.outbound ++ [⟨shown.toFields, none⟩] }
  -- an id is drawn, the notification is queued, and the first envelope of the queue is taken
  have hdraw : (notify id n).run.after (.drawn note) = some (none, shows) := rfl
  obtain ⟨drawing, hdrawing, hdrawn⟩ := Caller.runs_outside c 0 rfl hdraw
  obtain ⟨queueing, hqueueing, hqueued⟩ := Caller.runs_queue hopen hroom
  obtain ⟨taking, htaking, htaken⟩ := Caller.runs_await (c := queued) hin
  have hrun := (hdrawing.append hqueueing).append htaking
  rw [afterEnvelope_of_accepted hmessage hconfirms] at hrun
  refine ⟨_, _, hrun, rfl, ?_⟩
  rw [Caller.heard_eq hrun, Caller.replies_append, Caller.replies_append, hdrawn, hqueued, htaken]
  rfl

theorem not_isAccepted_isDisplayed (h : e.isAccepted (isDisplayed id) = false) (noted : String)
    (level : Binary64) : e.message ≠ .ok (.notificationDisplayed id noted level) := by
  intro hmessage
  rw [isAccepted_isDisplayed_iff.mpr ⟨noted, level, hmessage⟩] at h
  cases h

/-- A notification is shown if it went out once and some acknowledgement of a notification of this
participant came: the last envelope that was taken, and the only one of them that is an
acknowledgement.  The id in it may be that of another notification.  If none came, it failed. -/
theorem notification_acknowledged (c : Connection) (id : String) (n : Notification)
    (journal : Caller.Journal (BusResult String)) (p : Caller (BusResult String))
    (r : BusResult String) (h : Caller.Runs (.start c (notify id n).run) journal p)
    (hdone : p.program = .done r) :
    match r with
    | .ok note =>
      Caller.calls journal = [.send (Message.notification note n.text n.level n.url).toFields] ∧
      ∃ before e noted level, Caller.heard journal = before ++ [e] ∧
        e.message = .ok (.notificationDisplayed id noted level) ∧
        ∀ b ∈ before, ∀ noted level, b.message ≠ .ok (.notificationDisplayed id noted level)
    | .error _ => ∀ e ∈ Caller.heard journal, ∀ noted level,
        e.message ≠ .ok (.notificationDisplayed id noted level) := by
  have hplay := Caller.play_of_done h rfl hdone
  simp only [Caller.start, run_notify] at hplay
  obtain ⟨drawn, replies, hreplies, hplay⟩ := play_freshId_iff.mp hplay
  have hends := ends_of_play hplay
  have hheard : Caller.heard journal = replies.filterMap Reply.envelope? := by
    rw [Caller.heard_eq h, hreplies]
    rfl
  rw [← hheard] at hends
  cases r with
  | ok note =>
    obtain ⟨rfl, hcalls, before, e, hlast, haccepted, hbefore⟩ := hends
    obtain ⟨noted, level, hmessage⟩ := isAccepted_isDisplayed_iff.mp haccepted
    refine ⟨hcalls, before, e, noted, level, hlast, hmessage, ?_⟩
    exact fun b hb => not_isAccepted_isDisplayed (hbefore b hb)
  | error err => exact fun e he => not_isAccepted_isDisplayed (hends e he)

/-! ## Late acknowledgements -/

/-- What an introducer says when it has shown a notification. -/
def acknowledgement (origin noted : String) : Envelope :=
  let contents := (⟨"i", ⟨none, none⟩⟩ : Codec).tag default
    (Message.notificationDisplayed origin noted .zero).toFields
  .received contents contents.write

theorem message_acknowledgement (origin noted : String) :
    (acknowledgement origin noted).message = .ok (.notificationDisplayed origin noted .zero) := by
  have hfinite : (Message.notificationDisplayed origin noted .zero).HasFiniteLevel := by
    intro level hlevel
    cases hlevel
    decide
  exact Envelope.message_eq_ok_iff.mpr (Message.ofFields_tag hfinite _ default)

/-- A connection in whose queue an envelope waits. -/
def holding (e : Envelope) : Connection :=
  { Connection.start ⟨"c", ⟨none, none⟩⟩ 4 0 .empty 0 with inbound := [e] }

/-- The notification of both runs. -/
def teaReady : Notification := ⟨"tea", "", .zero⟩

/-- A notification is shown once an acknowledgement of it or of another one waits. -/
theorem runs_holding (noted note : String) :
    ∃ journal p, Caller.Runs
      (.start (holding (acknowledgement "c" noted)) (notify "c" teaReady).run) journal p ∧
      p.program = .done (.ok note) ∧ Caller.heard journal = [acknowledgement "c" noted] :=
  takes_waiting_acknowledgement teaReady note rfl rfl rfl
    (isAccepted_isDisplayed_iff.mpr ⟨noted, .zero, message_acknowledgement "c" noted⟩)

/-- The acknowledgement that waits is that of the notification. -/
theorem notification_acknowledged_tea :
    ∃ (journal : Caller.Journal (BusResult String)) (p : Caller (BusResult String)),
      Caller.Runs (.start (holding (acknowledgement "c" "notify-tea")) (notify "c" teaReady).run)
        journal p ∧
      p.program = .done (.ok "notify-tea") ∧
      Caller.calls journal = [.send (Message.notification "notify-tea" "tea" .zero "").toFields] ∧
      Caller.heard journal = [acknowledgement "c" "notify-tea"] := by
  obtain ⟨journal, p, hrun, hdone, hheard⟩ := runs_holding "notify-tea" "notify-tea"
  obtain ⟨hcalls, -⟩ := notification_acknowledged _ "c" teaReady journal p _ hrun hdone
  exact ⟨journal, p, hrun, hdone, hcalls, hheard⟩

/-- The acknowledgement that waits is that of an earlier notification, and no other one comes. -/
theorem late_acknowledgement_taken :
    let c := holding (acknowledgement "c" "notify-first")
    ∃ (journal : Caller.Journal (BusResult String)) (p : Caller (BusResult String)),
      Caller.Runs (.start c (notify c.codec.id teaReady).run) journal p ∧
      p.program = .done (.ok "notify-second") ∧
      ∀ e ∈ Caller.heard journal, ∀ level,
        e.message ≠ .ok (.notificationDisplayed c.codec.id "notify-second" level) := by
  intro c
  obtain ⟨journal, p, hrun, hdone, hheard⟩ := runs_holding "notify-first" "notify-second"
  refine ⟨journal, p, hrun, hdone, ?_⟩
  intro e he level hmessage
  rw [hheard, List.mem_singleton] at he
  rw [he, message_acknowledgement] at hmessage
  have hsame : "notify-first" = "notify-second" :=
    (Message.notificationDisplayed.inj (Except.ok.inj hmessage)).2.1
  revert hsame
  decide

end MessageBus.Request
