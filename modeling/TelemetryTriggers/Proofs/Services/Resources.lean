import TelemetryTriggers.Proofs.Services.Rows

/-!
# Resources over time

Whatever is done to the services and whatever fails, a topic and a rule are known by the name
that they were made with, no subscription outlives its topic, and the log of deliveries grows
at its end.

Main definitions: `OneToOne`, names and handles that stand for each other; `World.publishedIn`,
the deliveries of a history.  The main statement is `World.resources_over_time`.
-/

namespace TelemetryTriggers

/-!
# Names and handles
-/

/-- Names and handles stand for each other: no two items have one name or one handle, and an
item has the name of a later one just when it has its handle. -/
structure OneToOne {α β γ : Type} (name : α -> β) (handle : α -> γ) (items later : List α) :
    Prop where
  names : (items.map name).Nodup
  handles : (items.map handle).Nodup
  same : forall a b, a ∈ items -> b ∈ later -> (name a = name b ↔ handle a = handle b)

theorem OneToOne.of_made {α β γ : Type} {name : α -> β} {handle : α -> γ} {make : β -> γ}
    {items later : List α} (hmake : forall {m n}, make m = make n -> m = n)
    (hitems : forall a, a ∈ items -> handle a = make (name a))
    (hlater : forall a, a ∈ later -> handle a = make (name a))
    (hhandles : (items.map handle).Nodup) : OneToOne name handle items later where
  names := by
    have hmade : items.map handle = (items.map name).map make := by
      rw [List.map_map]
      exact List.map_congr_left hitems
    rw [hmade] at hhandles
    exact hhandles.of_map
  handles := hhandles
  same := by
    intro a b ha hb
    rw [hitems a ha, hlater b hb]
    exact ⟨congrArg make, hmake⟩

theorem Broker.Integrity.oneToOne {b b' : Broker} (h : b.Integrity) (h' : b'.Integrity) :
    OneToOne Topic.name Topic.handle b.topics b'.topics :=
  .of_made handleFor_injective h.named h'.named h.topic_handles

theorem RuleEngine.Integrity.oneToOne {e e' : RuleEngine} (h : e.Integrity)
    (h' : e'.Integrity) : OneToOne Rule.name Rule.handle e.rules e'.rules :=
  .of_made handleFor_injective h.named h'.named h.handles

/-!
# Topics that are made again, and topics that go
-/

namespace Call

variable {w : World} {deadline : Option Nat}

theorem attempt_createTopic_again (h : w.broker.Integrity) {t : Topic} (ht : t ∈ w.broker.topics) :
    ((createTopic t.name).attempt deadline w).2 = ((createTopic t.name).start w).2 ∧
      forall handle, ((createTopic t.name).attempt deadline w).1 = .ok handle ->
        handle = t.handle := by
  have hlive : w.broker.hasTopic (Broker.handleFor t.name) = true :=
    Broker.hasTopic_iff.mpr ⟨t, ht, h.named t ht⟩
  have hsame : w.broker.createTopic t.name = w.broker := if_pos hlive
  rcases (createTopic t.name).attempt_cases deadline w with ⟨e, heq⟩ | heq
  · rw [heq]
    refine ⟨rfl, fun handle hok => ?_⟩
    cases hok
  · have hwork : (createTopic t.name).perform ((createTopic t.name).start w).2 =
        (.ok t.handle, ((createTopic t.name).start w).2) := by
      rw [h.named t ht]
      show (_, { ((createTopic t.name).start w).2 with broker := w.broker.createTopic t.name }) = _
      rw [hsame]
      rfl
    rw [heq, hwork]
    exact ⟨rfl, fun handle hok => (Except.ok.inj hok).symm⟩

theorem attempt_deleteTopic {topic : TopicHandle}
    (h : ((deleteTopic topic).attempt deadline w).1 = .ok ()) :
    ((deleteTopic topic).attempt deadline w).2 =
      { w with
        broker := { w.broker with
          topics := w.broker.topics.filter (·.handle != topic)
          subscriptions := w.broker.subscriptions.filter (·.topic != topic) }
        faults := (w.faults.check "broker.delete_topic").2 } := by
  rcases (deleteTopic topic).attempt_cases deadline w with ⟨e, heq⟩ | heq
  · rw [heq] at h
    cases h
  · rw [heq] at h ⊢
    rcases hperform : (deleteTopic topic).perform ((deleteTopic topic).start w).2 with ⟨reply, v⟩
    rw [hperform] at h
    cases performed hperform with
    | refused e => cases h
    | answered hreads => exact hreads.elim
    | deleteTopic => rfl

end Call

namespace World

/-!
# The log of deliveries
-/

def publishedBy (w : World) : Event -> List Delivery
  | .publish topic message => w.broker.deliveriesOf topic message
  | _ => []

def publishedIn : World -> List Event -> List Delivery
  | _, [] => []
  | w, event :: events => w.publishedBy event ++ (w.after event).publishedIn events

theorem deliveries_after (w : World) (event : Event) :
    (w.after event).broker.deliveries = w.broker.deliveries ++ w.publishedBy event := by
  cases event with
  | publish topic message => rfl
  | register thing => exact (List.append_nil _).symm
  | plan faults => exact (List.append_nil _).symm
  | call deadline c =>
      show (c.attempt deadline w).2.broker.deliveries = w.broker.deliveries ++ []
      rw [List.append_nil]
      rcases c.attempt_cases deadline w with ⟨e, heq⟩ | heq
      · rw [heq]
        rfl
      · rw [heq]
        exact (c.perform_records _).2

theorem deliveries_afterAll (w : World) (events : List Event) :
    (w.afterAll events).broker.deliveries = w.broker.deliveries ++ w.publishedIn events := by
  induction events generalizing w with
  | nil => exact (List.append_nil _).symm
  | cons event events ih =>
      show ((w.after event).afterAll events).broker.deliveries = _
      rw [ih, deliveries_after, publishedIn, List.append_assoc]

/-- What an update makes of the services is a history of publications. -/
theorem dispatch_eq_afterAll (w : World) (u : ShadowUpdate) :
    (w.dispatch u).2 =
      w.afterAll ((w.engine.select u).map fun m => .publish m.topic m.message) := by
  have hall : forall (ms : List RuleMatch) (w : World),
      { w with broker := (RuleEngine.publishAll ms w.broker).2 } =
        w.afterAll (ms.map fun m => .publish m.topic m.message) := by
    intro ms
    induction ms with
    | nil => exact fun _ => rfl
    | cons m ms ih => exact fun w => ih (w.after (.publish m.topic m.message))
  exact hall (w.engine.select u) w

/-!
# Resources in a history
-/

/-- After any history of the services, with any arguments and faults and whatever identifiers
are drawn, each subscription is to a topic that is there, and topics and rules correspond one to
one with their names, now and in what comes later.  The log of deliveries has grown at its end
after anything that comes later, by what was published in the meantime.  A topic that is made
again is left as it is, and so is everything else; a topic that is deleted goes with its own
subscriptions, and nothing else goes; and a call that fails changes nothing but the plan of
faults.  The publications of an update are a history as well. -/
theorem resources_over_time (things : List Thing) (ids : IdSource) (events : List Event) :
    let w := (World.ofThings things ids).afterAll events
    (forall s, s ∈ w.broker.subscriptions ->
      exists t, t ∈ w.broker.topics ∧ t.handle = s.topic) ∧
      (forall later,
        OneToOne Topic.name Topic.handle w.broker.topics (w.afterAll later).broker.topics ∧
        OneToOne Rule.name Rule.handle w.engine.rules (w.afterAll later).engine.rules ∧
        (w.afterAll later).broker.deliveries = w.broker.deliveries ++ w.publishedIn later) ∧
      (forall deadline t, t ∈ w.broker.topics ->
        w.after (.call deadline (.createTopic t.name)) =
          { w with faults := (w.faults.check "broker.create_topic").2 } ∧
        forall handle, ((Call.createTopic t.name).attempt deadline w).1 = .ok handle ->
          handle = t.handle) ∧
      (forall deadline topic, ((Call.deleteTopic topic).attempt deadline w).1 = .ok () ->
        w.after (.call deadline (.deleteTopic topic)) =
          { w with
            broker := { w.broker with
              topics := w.broker.topics.filter (·.handle != topic)
              subscriptions := w.broker.subscriptions.filter (·.topic != topic) }
            faults := (w.faults.check "broker.delete_topic").2 }) ∧
      (forall deadline c e, (c.attempt deadline w).1 = .error e ->
        w.after (.call deadline c) = { w with faults := (w.faults.check c.operation).2 }) ∧
      forall u, exists later, (w.dispatch u).2 = w.afterAll later := by
  intro w
  have h : w.Integrity := (integrity_ofThings things ids).afterAll events
  refine ⟨?_, ?_, ?_, ?_, ?_, ?_⟩
  · exact fun s hs => Broker.hasTopic_iff.mp (h.broker.live s hs)
  · intro later
    have hlater : (w.afterAll later).Integrity := h.afterAll later
    exact ⟨h.broker.oneToOne hlater.broker, h.engine.oneToOne hlater.engine,
      w.deliveries_afterAll later⟩
  · exact fun deadline t ht => Call.attempt_createTopic_again h.broker ht
  · exact fun deadline topic hok => Call.attempt_deleteTopic hok
  · exact fun deadline c e herror => Call.attempt_error herror
  · exact fun u => ⟨_, w.dispatch_eq_afterAll u⟩

/-!
# An example
-/

def tooWarm : Predicate :=
  ⟨"thermostat", ⟨"temperature", .greaterThan, 30⟩, "Too warm", ""⟩

/-- Two topics get a subscription each and one of them a rule, and a message is published on it.
Another subscription fails, and its endpoint is subscribed later. -/
def postings : List Event :=
  let heat := Broker.handleFor "heat"
  let frost := Broker.handleFor "frost"
  [.call none (.createTopic "heat"), .call none (.createTopic "frost"),
    .call none (.subscribe heat "email" "driver@example.com"),
    .plan (FaultPlan.empty.set "broker.subscribe" (.times (.unavailable "down") 1)),
    .call (some 20) (.subscribe frost "sms" "+4912345678"),
    .call (some 20) (.subscribe frost "sms" "+4912345678"),
    .call none (.installRule "warm" tooWarm heat), .publish heat "Too warm"]

theorem postings_over_time :
    let w := (ofThings [] ⟨Uuid.ofNat, 0⟩).afterAll postings
    let heat := Broker.handleFor "heat"
    let installed : Call := .installRule "warm" tooWarm (Broker.handleFor "frost")
    w.broker.subscriptions.map (·.endpoint) = ["driver@example.com", "+4912345678"] ∧
      (w.broker.topics.map (·.name)).Nodup ∧ (w.engine.rules.map (·.handle)).Nodup ∧
      (w.after (.call none (.createTopic "heat"))).broker = w.broker ∧
      (w.after (.call none installed)).engine = w.engine ∧
      (w.after (.publish heat "Open")).broker.deliveries =
        w.broker.deliveries ++ w.broker.deliveriesOf heat "Open" ∧
      (w.broker.deliveries.map (·.message) ++
        (w.broker.deliveriesOf heat "Open").map (·.message)) = ["Too warm", "Open"] ∧
      (w.after (.call none (.deleteTopic heat))).broker.subscriptions =
        w.broker.subscriptions.filter (·.topic != heat) ∧
      (w.broker.subscriptions.filter (·.topic != heat)).map (·.endpoint) = ["+4912345678"] := by
  intro w heat installed
  have hheat : (⟨"heat", heat⟩ : Topic) ∈ w.broker.topics := by decide +kernel
  have hrefused : (installed.attempt none w).1 =
      .error (.rejected ("rule " ++ "warm" ++ " already exists")) := by
    rfl
  have hdeleted : ((Call.deleteTopic heat).attempt none w).1 = .ok () := by rfl
  rcases resources_over_time [] ⟨Uuid.ofNat, 0⟩ postings with
    ⟨_, hlater, hagain, hdelete, hfailed, _⟩
  rcases hlater [.publish heat "Open"] with ⟨htopics, hrules, hlog⟩
  refine ⟨by decide +kernel, htopics.names, hrules.handles, ?_, ?_, ?_, by decide +kernel, ?_,
    by decide +kernel⟩
  · have hsame := congrArg World.broker (hagain none ⟨"heat", heat⟩ hheat).1
    exact hsame
  · have hsame := congrArg World.engine (hfailed none installed _ hrefused)
    exact hsame
  · rw [← List.append_nil (w.broker.deliveriesOf heat "Open")]
    exact hlog
  · exact congrArg (fun v => v.broker.subscriptions) (hdelete none heat hdeleted)

end World
end TelemetryTriggers
