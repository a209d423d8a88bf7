import Mathlib.Data.List.SplitBy
import TelemetryTriggers.Proofs.Selection
import TelemetryTriggers.Proofs.Services.Fanout

/-!
# One notification per crossing

A device reports a property again and again, each time with the reading before.  The
condition of a trigger is crossed where a block of readings begins that meet it, so a rule
publishes once for each block, however long it is, and each subscription gets one message.

Main definitions: `Condition.blocks`, the maximal blocks of readings that meet a condition;
`ShadowUpdate.Reporting`, updates that report readings one after the other;
`World.dispatchAll`.  The main statements are `Condition.crossings_eq_blocks` and
`World.Reachable.once_per_block`.
-/

namespace TelemetryTriggers

/-!
# Blocks of readings
-/

namespace Condition

variable {c : Condition}

def crossings (c : Condition) : Option Float -> List Float -> Nat
  | _, [] => 0
  | previous, r :: rs => (if c.crosses previous r then 1 else 0) + c.crossings (some r) rs

def alike (c : Condition) (r s : Float) : Bool :=
  decide (c.IsMet r) == decide (c.IsMet s)

/-- The longest blocks of consecutive readings that meet the condition. -/
def blocks (c : Condition) (rs : List Float) : List (List Float) :=
  (rs.splitBy c.alike).filter fun block => block.all fun r => decide (c.IsMet r)

theorem alike_eq (c : Condition) (r s : Float) :
    c.alike r s = (c.isSatisfied r == c.isSatisfied s) := by
  rw [alike, isSatisfied_eq, isSatisfied_eq]

theorem blocks_eq (c : Condition) (rs : List Float) :
    c.blocks rs = (rs.splitBy c.alike).filter fun block => block.all c.isSatisfied := by
  simp only [blocks, ← isSatisfied_eq]

theorem all_of_alike {r : Float} {rs : List Float}
    (h : (r :: rs).IsChain fun r s => c.alike r s = true) :
    (r :: rs).all c.isSatisfied = c.isSatisfied r := by
  induction rs generalizing r with
  | nil => exact Bool.and_true _
  | cons s rs ih =>
      rcases List.isChain_cons_cons.mp h with ⟨hsame, hrest⟩
      rw [alike_eq, beq_iff_eq] at hsame
      rw [List.all_cons, ih hrest, ← hsame, Bool.and_self]

theorem crossings_append {r : Float} {rs : List Float}
    (h : (r :: rs).IsChain fun r s => c.alike r s = true) (previous : Option Float)
    (later : List Float) :
    c.crossings previous (r :: rs ++ later) =
      (if c.crosses previous r then 1 else 0) +
        c.crossings (some ((r :: rs).getLast (List.cons_ne_nil r rs))) later := by
  induction rs generalizing r previous with
  | nil => rfl
  | cons s rs ih =>
      rcases List.isChain_cons_cons.mp h with ⟨hsame, hrest⟩
      have hquiet : c.crosses (some r) s = false := by
        rw [alike_eq, beq_iff_eq] at hsame
        rw [crosses, Option.any_some, hsame, Bool.and_not_self]
      rw [List.cons_append, crossings, ih hrest, hquiet, List.getLast_cons (List.cons_ne_nil s rs),
        if_neg Bool.false_ne_true, Nat.zero_add]

theorem crossings_flatten {bs : List (List Float)} (hnil : [] ∉ bs)
    (halike : forall block, block ∈ bs -> block.IsChain fun r s => c.alike r s = true)
    (hchange : bs.IsChain fun a b => exists ha hb, c.alike (a.getLast ha) (b.head hb) = false)
    (previous : Option Float)
    (hprevious : forall r rs, (r :: rs) ∈ bs.head? -> c.isSatisfied r = true ->
      previous.any c.isSatisfied = false) :
    c.crossings previous bs.flatten =
      (bs.filter fun block => block.all c.isSatisfied).length := by
  induction bs generalizing previous with
  | nil => rfl
  | cons block bs ih =>
      rcases block with _ | ⟨r, rs⟩
      · exact absurd List.mem_cons_self hnil
      · have hblock := halike (r :: rs) List.mem_cons_self
        rcases List.isChain_cons.mp hchange with ⟨hnext, hchange⟩
        have hrest := ih (fun h => hnil (List.mem_cons_of_mem _ h))
          (fun block h => halike block (List.mem_cons_of_mem _ h)) hchange
          (some ((r :: rs).getLast (List.cons_ne_nil r rs))) ?_
        · rw [List.flatten_cons, crossings_append hblock, hrest, List.filter_cons,
            all_of_alike hblock, crosses]
          cases hr : c.isSatisfied r with
          | false => simp
          | true =>
              rw [hprevious r rs rfl hr]
              simp [Nat.add_comm]
        · intro s ss hs hsatisfied
          rcases hnext _ hs with ⟨_, _, hdiffer⟩
          rw [alike_eq, List.head_cons, hsatisfied] at hdiffer
          simpa using hdiffer

theorem crossings_eq_blocks (c : Condition) (rs : List Float) :
    c.crossings none rs = (c.blocks rs).length := by
  have h := crossings_flatten (c := c) (List.nil_notMem_splitBy c.alike rs)
    (fun block => List.isChain_of_mem_splitBy) (List.isChain_getLast_head_splitBy c.alike rs)
    none fun _ _ _ _ => rfl
  rw [List.flatten_splitBy, ← blocks_eq] at h
  exact h

end Condition

/-!
# Updates that follow one another
-/

namespace ShadowUpdate

/-- The updates of a device report these readings of a property one after the other, each
with the one before it. -/
def Reporting (thing property : String) : Option Float -> List Float -> List ShadowUpdate -> Prop
  | _, [], [] => True
  | previous, r :: rs, u :: us =>
      u.thing = thing ∧ u.previous.get? property = previous ∧
        u.current.get? property = some r ∧ Reporting thing property (some r) rs us
  | _, _, _ => False

def transitions (thing property : String) : Option Float -> List Float -> List ShadowUpdate
  | _, [] => []
  | previous, r :: rs =>
      (ofThing thing).withTransition property previous r :: transitions thing property (some r) rs

theorem reporting_transitions (thing property : String) (previous : Option Float)
    (rs : List Float) :
    Reporting thing property previous rs (transitions thing property previous rs) := by
  induction rs generalizing previous with
  | nil => trivial
  | cons r rs ih =>
      refine ⟨rfl, ?_, Readings.get?_set_self _ _ _, ih (some r)⟩
      cases previous with
      | none => rfl
      | some value => exact Readings.get?_set_self _ _ _

theorem isSelectedBy_eq_crosses {u : ShadowUpdate} {p : Predicate} {r : Float}
    (hthing : u.thing = p.thing) (hcurrent : u.current.get? p.condition.property = some r) :
    u.isSelectedBy p = p.condition.crosses (u.previous.get? p.condition.property) r := by
  rw [isSelectedBy, if_pos hthing, hcurrent]
  rfl

end ShadowUpdate

/-!
# What updates deliver
-/

namespace World

def dispatchAll : List ShadowUpdate -> World -> List Delivery × World
  | [], w => ([], w)
  | u :: us, w =>
      let (made, w) := w.dispatch u
      let (more, w) := dispatchAll us w
      (made ++ more, w)

theorem dispatchAll_log (us : List ShadowUpdate) (w : World) :
    (w.dispatchAll us).2 = w.logged (w.dispatchAll us).1 := by
  induction us generalizing w with
  | nil => simp only [dispatchAll, logged, List.append_nil]
  | cons u us ih =>
      show ((w.dispatch u).2.dispatchAll us).2 = _
      rw [ih, dispatch_log, logged_logged, ← dispatch_log]
      rfl

theorem dispatchAll_cons (u : ShadowUpdate) (us : List ShadowUpdate) (w : World) :
    (w.dispatchAll (u :: us)).1 =
      (w.dispatch u).1 ++ ((w.logged (w.dispatch u).1).dispatchAll us).1 := by
  rw [← dispatch_log]
  rfl

theorem exists_subscription_of_dispatchAll {us : List ShadowUpdate} {w : World} {d : Delivery}
    (hd : d ∈ (w.dispatchAll us).1) :
    exists s message, s ∈ w.broker.subscriptions ∧ d = Broker.deliver message s := by
  induction us generalizing w with
  | nil => cases hd
  | cons u us ih =>
      rw [dispatchAll_cons] at hd
      rcases List.mem_append.mp hd with hfirst | hlater
      · have hmade : d ∈ (RuleEngine.publishAll (w.engine.select u) w.broker).1 := hfirst
        rw [RuleEngine.publishAll_made] at hmade
        rcases List.mem_flatMap.mp hmade with ⟨m, _, hmade⟩
        rcases Broker.exists_subscription hmade with ⟨_, s, hs, _, rfl⟩
        exact ⟨s, m.message, hs, rfl⟩
      · exact ih (w := w.logged (w.dispatch u).1) hlater

theorem dispatchAll_on_topic {rule : Rule} {w : World}
    (honly : w.engine.rules.filter (·.topic == rule.topic) = [rule]) {previous : Option Float}
    {rs : List Float} {us : List ShadowUpdate}
    (hus : ShadowUpdate.Reporting rule.predicate.thing rule.predicate.condition.property
      previous rs us) :
    (w.dispatchAll us).1.filter (·.topic == rule.topic) =
      (List.replicate (rule.predicate.condition.crossings previous rs)
        (w.broker.deliveriesOf rule.topic rule.predicate.message)).flatten := by
  induction us generalizing w previous rs with
  | nil =>
      cases rs with
      | nil => rfl
      | cons r rs => exact hus.elim
  | cons u us ih =>
      cases rs with
      | nil => exact hus.elim
      | cons r rs =>
          rcases hus with ⟨hthing, hprevious, hcurrent, hrest⟩
          have hfirst : (w.dispatch u).1.filter (·.topic == rule.topic) =
              if rule.predicate.condition.crosses previous r then
                w.broker.deliveriesOf rule.topic rule.predicate.message
              else [] := by
            have hmade := RuleEngine.dispatch_on_topic (b := w.broker) (u := u) honly
            rw [ShadowUpdate.isSelectedBy_eq_crosses hthing hcurrent, hprevious] at hmade
            exact hmade
          have hlater := ih (w := w.logged (w.dispatch u).1) honly hrest
          rw [dispatchAll_cons, List.filter_append, hfirst, hlater, Condition.crossings,
            List.replicate_add, List.flatten_append]
          congr 1
          split
          · exact (List.append_nil _).symm
          · rfl

/-- A rule that was compiled from a condition is the only one on its topic.  When its device
reports readings one after the other, each subscription to the topic gets the message of the
rule once for each of the longest blocks of readings that meet the condition, and the log
of deliveries grows by what is delivered, in the order in which it is. -/
theorem Reachable.once_per_block {w : World} (hw : w.Reachable) {rule : Rule}
    (hrule : rule ∈ w.engine.rules) {c : Condition} {thing message : String}
    (hcompile : c.compile thing message = .ok rule.predicate)
    (honly : forall other, other ∈ w.engine.rules -> other.topic = rule.topic -> other = rule)
    {rs : List Float} {us : List ShadowUpdate}
    (hus : ShadowUpdate.Reporting thing c.property none rs us) :
    exists made, w.dispatchAll us = (made, w.logged made) ∧
      made.filter (·.topic == rule.topic) =
        (List.replicate (c.blocks rs).length
          (w.broker.deliveriesOf rule.topic message)).flatten ∧
      forall s, s ∈ w.broker.subscriptions -> s.topic = rule.topic ->
        made.filter (·.subscription == s.handle) =
          List.replicate (c.blocks rs).length (Broker.deliver message s) := by
  have hpredicate := Condition.eq_of_compile hcompile
  have hthing : rule.predicate.thing = thing := congrArg Predicate.thing hpredicate
  have hcondition : rule.predicate.condition = c := congrArg Predicate.condition hpredicate
  have hmessage : rule.predicate.message = message := congrArg Predicate.message hpredicate
  have hsingle := hw.integrity.engine.only_on_topic hrule honly
  have htopic : (w.dispatchAll us).1.filter (·.topic == rule.topic) =
      (List.replicate (c.blocks rs).length
        (w.broker.deliveriesOf rule.topic message)).flatten := by
    rw [← hthing, ← hcondition] at hus
    rw [dispatchAll_on_topic hsingle hus, hcondition, hmessage, c.crossings_eq_blocks]
  refine ⟨_, Prod.ext rfl (dispatchAll_log us w), htopic, ?_⟩
  intro s hs hon
  -- what the subscription gets is delivered on its topic
  have hmine : (w.dispatchAll us).1.filter (·.subscription == s.handle) =
      ((w.dispatchAll us).1.filter (·.topic == rule.topic)).filter
        (·.subscription == s.handle) := by
    rw [List.filter_filter]
    apply List.filter_congr
    intro d hd
    rcases exists_subscription_of_dispatchAll hd with ⟨other, text, hother, rfl⟩
    cases hsame : (Broker.deliver text other).subscription == s.handle with
    | false => rfl
    | true =>
        have hhandles := hw.integrity.broker.subscription_handles
        rcases List.inj_on_of_nodup_map hhandles hother hs (eq_of_beq hsame) with rfl
        rw [Bool.true_and]
        exact (beq_iff_eq.mpr hon).symm
  rw [hmine, htopic, ← hon, List.filter_flatten, List.map_replicate,
    hw.integrity.broker.deliveries_to hs, List.flatten_replicate_singleton]

end World

/-!
# An example
-/

def heat : Condition :=
  ⟨"temperature", .greaterThan, 30⟩

def heatRule : Rule where
  handle := RuleEngine.handleFor "heat"
  name := "heat"
  predicate := ⟨"thermostat", heat, "Too warm", predicateText "thermostat" heat "Too warm"⟩
  topic := Broker.handleFor "heat"

def warning : World :=
  let made := (Call.createTopic "heat").perform (.ofThings [] ⟨Uuid.ofNat, 0⟩)
  let subscribed := (Call.subscribe heatRule.topic "sms" "+4912345678").perform made.2
  ((Call.installRule "heat" heatRule.predicate heatRule.topic).perform subscribed.2).2

def hotDay : List Float :=
  [19, 31, 32, 0 / 0, 33]

/-- The day has two blocks of heat, and the telephone is warned twice. -/
theorem warning_once_per_block :
    warning.broker.subscriptions.length = 1 ∧ heat.blocks hotDay = [[31, 32], [33]] ∧
      (exists made, warning.dispatchAll
          (ShadowUpdate.transitions "thermostat" "temperature" none hotDay) =
            (made, warning.logged made) ∧
        made.filter (·.topic == heatRule.topic) =
          (List.replicate (heat.blocks hotDay).length
            (warning.broker.deliveriesOf heatRule.topic "Too warm")).flatten ∧
        (forall s, s ∈ warning.broker.subscriptions -> s.topic = heatRule.topic ->
          made.filter (·.subscription == s.handle) =
            List.replicate (heat.blocks hotDay).length (Broker.deliver "Too warm" s)) ∧
        made.map (fun d => (d.protocol, d.endpoint, d.message)) =
          List.replicate 2 ("sms", "+4912345678", "Too warm")) := by
  have hw : warning.Reachable := .call _ (.call _ (.call _ (.start [] ⟨Uuid.ofNat, 0⟩)))
  have hrules : warning.engine.rules = [heatRule] := rfl
  have hcompile : heat.compile "thermostat" "Too warm" = .ok heatRule.predicate := rfl
  have hwarned : (warning.dispatchAll
      (ShadowUpdate.transitions "thermostat" "temperature" none hotDay)).1.map
        (fun d => (d.protocol, d.endpoint, d.message)) =
          List.replicate 2 ("sms", "+4912345678", "Too warm") := by
    decide +kernel
  have hrule : heatRule ∈ warning.engine.rules := by
    rw [hrules]
    exact List.mem_singleton_self heatRule
  have honly : forall other, other ∈ warning.engine.rules -> other.topic = heatRule.topic ->
      other = heatRule := by
    intro other hother _
    rw [hrules] at hother
    exact List.mem_singleton.mp hother
  refine ⟨by decide +kernel, by decide +kernel, ?_⟩
  rcases hw.once_per_block hrule hcompile honly
    (ShadowUpdate.reporting_transitions "thermostat" "temperature" none hotDay) with
    ⟨made, hmade, htopic, hmine⟩
  rw [hmade] at hwarned
  exact ⟨made, hmade, htopic, hmine, hwarned⟩

end TelemetryTriggers
