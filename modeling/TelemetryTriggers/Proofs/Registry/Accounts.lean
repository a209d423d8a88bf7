import Mathlib.Data.List.Flatten
import Mathlib.Data.List.GetD
import TelemetryTriggers.Proofs.Orchestrator.Serializability
import TelemetryTriggers.Proofs.Registry.Refinement
import TelemetryTriggers.Proofs.Services.Part

/-!
# Accounts do not interfere

What an account is answered depends on its own entries, on its devices and on the
identifiers that its request draws.  The requests of other accounts leave its entries as
they are, whatever triggers, targets or devices they name.  So each account is answered
as if it were alone.

Main definitions: `Errand`, a request with the identifiers that it can draw;
`World.attend`, which serves errands one after the other; `Registry.Part`, what some
accounts have of a registry.  The main statement is `World.attend_alone`.
-/

namespace TelemetryTriggers

/-!
# Sources that go on alike
-/

namespace IdSource

def Alike (source other : IdSource) : Prop :=
  forall k, source.sequence (source.drawn + k) = other.sequence (other.drawn + k)

variable {source other : IdSource} {us past : List Uuid} {u : Uuid}

theorem Alike.next_fst (h : source.Alike other) : other.next.1 = source.next.1 :=
  (h 0).symm

theorem Alike.next_snd (h : source.Alike other) : source.next.2.Alike other.next.2 := by
  intro k
  have hlater := h (1 + k)
  rw [← Nat.add_assoc, ← Nat.add_assoc] at hlater
  exact hlater

theorem alike_ofList (past us : List Uuid) :
    ((ofList (past ++ us)).skip past.length).Alike (ofList us) := by
  intro k
  show (past ++ us).getD (0 + past.length + k) _ = us.getD (0 + k) _
  rw [Nat.zero_add, Nat.zero_add, List.getD_append_right _ _ _ _ (Nat.le_add_right _ _),
    Nat.add_sub_cancel_left]

theorem mem_of_gave (hsequence : source.sequence = (ofList us).sequence)
    (hdrawn : source.drawn ≤ us.length) (hu : source.Gave u) : u ∈ us := by
  rcases hu with ⟨k, hk, rfl⟩
  have hlength := Nat.lt_of_lt_of_le hk hdrawn
  have hget : (ofList us).sequence k = us[k] := List.getD_eq_getElem us _ hlength
  rw [hsequence, hget]
  exact List.getElem_mem hlength

theorem gave_of_mem (us : List Uuid) (hu : u ∈ past) :
    ((ofList (past ++ us)).skip past.length).Gave u := by
  rcases List.mem_iff_getElem.mp hu with ⟨k, hk, rfl⟩
  refine ⟨k, ?_, ?_⟩
  · show k < 0 + past.length
    rw [Nat.zero_add]
    exact hk
  · show past[k] = (past ++ us).getD k _
    rw [List.getD_append _ _ _ _ hk, List.getD_eq_getElem _ _ hk]

theorem unrepeated_of_nodup (hsequence : source.sequence = (ofList us).sequence)
    (hdrawn : source.drawn ≤ us.length) (hus : us.Nodup) : source.Unrepeated := by
  intro i j hi hj heq
  have hleft := Nat.lt_of_lt_of_le hi hdrawn
  have hright := Nat.lt_of_lt_of_le hj hdrawn
  have hget : forall k (hk : k < us.length), source.sequence k = us[k] := by
    intro k hk
    rw [hsequence]
    exact List.getD_eq_getElem us _ hk
  rw [hget i hleft, hget j hright] at heq
  exact hus.getElem_inj_iff.mp heq

end IdSource

theorem Call.perform_alike (c : Call) {w : World} {ids : IdSource} (h : w.ids.Alike ids) :
    exists later, (c.perform w).2.ids.Alike later ∧
      c.perform { w with ids } = ((c.perform w).1, { (c.perform w).2 with ids := later }) := by
  have hstore : forall r, exists later, (onStore w r).2.ids.Alike later ∧
      onStore { w with ids } r = ((onStore w r).1, { (onStore w r).2 with ids := later }) := by
    intro r
    cases r with
    | error e => exact ⟨ids, h, rfl⟩
    | ok store => exact ⟨ids, h, rfl⟩
  have hbroker : forall r, exists later, (onBroker w r).2.ids.Alike later ∧
      onBroker { w with ids } r = ((onBroker w r).1, { (onBroker w r).2 with ids := later }) := by
    intro r
    cases r with
    | error e => exact ⟨ids, h, rfl⟩
    | ok broker => exact ⟨ids, h, rfl⟩
  have hengine : forall r, exists later, (onEngine w r).2.ids.Alike later ∧
      onEngine { w with ids } r = ((onEngine w r).1, { (onEngine w r).2 with ids := later }) := by
    intro r
    cases r with
    | error e => exact ⟨ids, h, rfl⟩
    | ok engine => exact ⟨ids, h, rfl⟩
  cases c with
  | insertTrigger row => exact hstore _
  | setHandles id handles => exact hstore _
  | deleteTrigger id => exact hstore _
  | insertTarget row => exact hstore _
  | deleteTarget id => exact hstore _
  | deleteTopic topic => exact hbroker _
  | unsubscribe subscription => exact hbroker _
  | removeRule rule => exact hengine _
  | subscribe topic protocol endpoint =>
      simp only [perform, h.next_fst]
      cases w.broker.subscribe topic protocol endpoint w.ids.next.1 with
      | error e => exact ⟨ids, h, rfl⟩
      | ok made => exact ⟨ids.next.2, h.next_snd, rfl⟩
  | installRule name predicate topic =>
      simp only [perform]
      cases w.engine.installRule name predicate topic with
      | error e => exact ⟨ids, h, rfl⟩
      | ok made => exact ⟨ids, h, rfl⟩
  | _ => exact ⟨ids, h, rfl⟩

theorem Saga.play_alike {α : Type} (s : Saga α) {w : World} {ids : IdSource}
    (h : w.ids.Alike ids) :
    exists later, s.play { w with ids } = ((s.play w).1, { (s.play w).2 with ids := later }) := by
  induction s generalizing w ids with
  | done a => exact ⟨ids, rfl⟩
  | call c next ih =>
      rcases c.perform_alike h with ⟨later, hlater, hperform⟩
      rcases ih (c.perform w).1 hlater with ⟨last, hplay⟩
      refine ⟨last, ?_⟩
      rw [Saga.play_call hperform]
      exact hplay
  | acquire id next ih =>
      simp only [play]
      cases w.locks.acquire? id with
      | none => exact ih false h
      | some locks => exact ih true (w := { w with locks }) h
  | release id next ih => exact ih (w := { w with locks := w.locks.release id }) h
  | isHeld id next ih => exact ih _ h
  | draw next ih =>
      simp only [play, h.next_fst]
      exact ih _ (w := { w with ids := w.ids.next.2 }) h.next_snd
  | detach next ih => exact ih h

/-!
# Requests of accounts
-/

namespace Request

/-- The account that makes a request.  Nobody in particular asks for a sweep. -/
def user? : Request -> Option UserId
  | create request => some request.user
  | delete user _ => some user
  | addTarget user _ _ => some user
  | removeTarget user _ => some user
  | getTrigger user _ => some user
  | listTriggers user => some user
  | listTargets user _ => some user
  | getTarget user _ => some user
  | recover => none

/-- A request draws at most this many identifiers: one for a trigger and two for each
target. -/
def draws : Request -> Nat
  | create request => 1 + 2 * request.targets.length
  | addTarget _ _ _ => 2
  | _ => 0

end Request

namespace Registry

variable {config : Config} {things : List Thing} {p : UserId -> Bool} {r part : Registry}

theorem drawn_enlistAll (targets : List ValidTarget) (ids : IdSource) :
    (enlistAll targets ids).2.drawn = ids.drawn + 2 * targets.length := by
  induction targets generalizing ids with
  | nil => rfl
  | cons target targets ih =>
      show (enlistAll targets (enlist target ids).2).2.drawn = _
      rw [ih, List.length_cons]
      show ids.drawn + 1 + 1 + _ = _
      omega

theorem drawn_step_le (request : Request) (r : Registry) :
    (step config things request r).2.ids.drawn ≤ r.ids.drawn + request.draws := by
  have hread : forall {α : Type} (f : Entry -> α) user id,
      (read f user id r).2.ids.drawn ≤ r.ids.drawn := by
    intro α f user id
    rw [read]
    split <;> exact Nat.le_refl _
  cases request with
  | create request =>
      rw [step, answered_snd, create, Request.draws]
      cases hvalid : request.validate config.maxTargets with
      | error e => exact Nat.le_add_right _ _
      | ok valid =>
          simp only [createValid]
          split
          · exact Nat.add_le_add_left (Nat.le_add_right _ _) _
          · rw [drawn_enlistAll, Lifecycle.length_validate hvalid]
            show r.ids.drawn + 1 + _ ≤ _
            omega
  | delete user id =>
      rw [step, answered_snd, delete]
      split <;> exact Nat.le_add_right _ _
  | addTarget user id spec =>
      rw [step, answered_snd, addTarget]
      split
      · exact Nat.le_add_right _ _
      · split
        · exact Nat.le_add_right _ _
        · split
          · exact Nat.le_add_right _ _
          · exact Nat.le_refl _
  | removeTarget user target =>
      rw [step, answered_snd, removeTarget]
      split <;> exact Nat.le_add_right _ _
  | getTrigger user id => exact hread _ _ _
  | listTriggers user => exact Nat.le_refl _
  | listTargets user id => exact hread _ _ _
  | getTarget user target =>
      rw [step, answered_snd, getTarget]
      split <;> exact Nat.le_refl _
  | recover => exact Nat.le_refl _

/-!
# What some accounts have of a registry
-/

/-- The second registry lists what these accounts have in the first one, and goes on with
the same identifiers. -/
structure Part (p : UserId -> Bool) (r part : Registry) : Prop where
  entries : part.entries = r.entries.filter fun e => p e.user
  ids : r.ids.Alike part.ids

structure Echoes {α : Type} (p : UserId -> Bool)
    (served echo : Except TriggerError α × Registry) : Prop where
  result : echo.1 = served.1
  part : Part p served.2 echo.2

theorem Echoes.answered {α : Type} {served echo : Except TriggerError α × Registry}
    (h : Echoes p served echo) (f : α -> Answer) :
    Echoes p (Registry.answered f served) (Registry.answered f echo) :=
  ⟨congrArg (Except.map f) h.result, h.part⟩

theorem findSome?_filter_of_imp {α β : Type} {f : α -> Option β} {keep : α -> Bool}
    {items : List α} (h : forall a b, f a = some b -> keep a = true) :
    (items.filter keep).findSome? f = items.findSome? f := by
  induction items with
  | nil => rfl
  | cons a items ih =>
      cases hfound : f a with
      | some b =>
          rw [List.filter_cons_of_pos (h a b hfound), List.findSome?_cons, List.findSome?_cons,
            hfound]
      | none =>
          rw [List.findSome?_cons, hfound, List.filter_cons]
          split
          · rw [List.findSome?_cons, hfound]
            exact ih
          · exact ih

theorem filter_map_users (change : Entry -> Entry)
    (hchange : forall e, (change e).user = e.user) (entries : List Entry) :
    (entries.map change).filter (fun e => p e.user) =
      (entries.filter fun e => p e.user).map change := by
  rw [List.filter_map]
  congr 1
  apply List.filter_congr
  intro e _
  rw [Function.comp_apply, hchange]

theorem filter_withoutTarget (target : TargetId) (entries : List Entry) :
    (withoutTarget target entries).filter (fun e => p e.user) =
      withoutTarget target (entries.filter fun e => p e.user) :=
  filter_map_users _ (by intro e; rfl) entries

theorem user_withTarget (id : TriggerId) (l : Listed) (e : Entry) :
    (if e.id = id then { e with targets := e.targets ++ [l] } else e).user = e.user := by
  split <;> rfl

theorem enlistAll_alike (targets : List ValidTarget) {ids other : IdSource}
    (h : ids.Alike other) :
    (enlistAll targets other).1 = (enlistAll targets ids).1 ∧
      (enlistAll targets ids).2.Alike (enlistAll targets other).2 := by
  induction targets generalizing ids other with
  | nil => exact ⟨rfl, h⟩
  | cons target targets ih =>
      rcases ih h.next_snd.next_snd with ⟨hlisted, hids⟩
      refine ⟨?_, hids⟩
      show (enlist target other).1 :: _ = (enlist target ids).1 :: _
      rw [enlist, h.next_fst, h.next_snd.next_fst]
      exact congrArg _ hlisted

namespace Part

theorem entry? (h : Part p r part) {user : UserId} (huser : p user = true) (id : TriggerId) :
    part.entry? user id = r.entry? user id := by
  rw [Registry.entry?, Registry.entry?, h.entries]
  apply find?_filter_of_imp
  intro e _ hfound
  rw [eq_of_beq (Bool.and_eq_true_iff.mp hfound).2]
  exact huser

theorem listed? (h : Part p r part) {user : UserId} (huser : p user = true)
    (target : TargetId) : part.listed? user target = r.listed? user target := by
  rw [Registry.listed?, Registry.listed?, h.entries]
  apply findSome?_filter_of_imp
  intro e found hfound
  split at hfound
  · rename_i hmine
    rw [eq_of_beq hmine]
    exact huser
  · cases hfound

theorem create (h : Part p r part) (request : CreateRequest) (huser : p request.user = true) :
    Echoes p (create config things request r) (create config things request part) := by
  rw [Registry.create, Registry.create]
  cases request.validate config.maxTargets with
  | error e => exact ⟨rfl, h⟩
  | ok valid =>
      simp only [createValid]
      cases (things.find? (·.name == valid.thingName)).filter (·.owner == request.user) with
      | none => exact ⟨rfl, h.entries, h.ids.next_snd⟩
      | some thing =>
          rcases enlistAll_alike valid.targets h.ids.next_snd with ⟨hlisted, hids⟩
          have hentry : newEntry request.user valid thing part.ids =
              newEntry request.user valid thing r.ids := by
            rw [newEntry, newEntry, h.ids.next_fst, hlisted]
          refine ⟨?_, ?_, hids⟩
          · show Except.ok _ = Except.ok _
            rw [hentry]
          · show part.entries ++ [_] = List.filter _ (r.entries ++ [_])
            rw [hentry, h.entries, List.filter_append, List.filter_cons_of_pos, List.filter_nil]
            exact huser

theorem delete (h : Part p r part) {user : UserId} (huser : p user = true) (id : TriggerId) :
    Echoes p (delete user id r) (delete user id part) := by
  rw [Registry.delete, Registry.delete, h.entry? huser]
  cases r.entry? user id with
  | none => exact ⟨rfl, h⟩
  | some e =>
      refine ⟨rfl, ?_, h.ids⟩
      show part.entries.filter _ = _
      rw [h.entries]
      exact filter_swap _ _ _

theorem addTarget (h : Part p r part) {user : UserId} (huser : p user = true) (id : TriggerId)
    (spec : TargetSpec) :
    Echoes p (addTarget config user id spec r) (addTarget config user id spec part) := by
  rw [Registry.addTarget, Registry.addTarget]
  cases spec.validate with
  | error e => exact ⟨rfl, h⟩
  | ok target =>
      simp only [h.entry? huser]
      cases r.entry? user id with
      | none => exact ⟨rfl, h⟩
      | some e =>
          by_cases hfull : config.maxTargets ≤ e.targets.length
          · simp only [if_pos hfull]
            exact ⟨rfl, h⟩
          · have hlisted : (enlist target part.ids).1 = (enlist target r.ids).1 := by
              rw [enlist, enlist, h.ids.next_fst, h.ids.next_snd.next_fst]
            simp only [if_neg hfull]
            refine ⟨?_, ?_, h.ids.next_snd.next_snd⟩
            · rw [hlisted]
            · show withTarget id _ part.entries = _
              rw [hlisted, h.entries]
              exact (filter_map_users _ (user_withTarget id _) _).symm

theorem removeTarget (h : Part p r part) {user : UserId} (huser : p user = true)
    (target : TargetId) :
    Echoes p (removeTarget user target r) (removeTarget user target part) := by
  rw [Registry.removeTarget, Registry.removeTarget, h.listed? huser]
  cases r.listed? user target with
  | none => exact ⟨rfl, h⟩
  | some found =>
      refine ⟨rfl, ?_, h.ids⟩
      show withoutTarget target part.entries = (withoutTarget target r.entries).filter _
      rw [h.entries]
      exact (filter_withoutTarget target _).symm

theorem read {α : Type} (h : Part p r part) {user : UserId} (huser : p user = true)
    (f : Entry -> α) (id : TriggerId) : Echoes p (read f user id r) (read f user id part) := by
  rw [Registry.read, Registry.read, h.entry? huser]
  cases r.entry? user id with
  | none => exact ⟨rfl, h⟩
  | some e => exact ⟨rfl, h⟩

theorem listTriggers (h : Part p r part) {user : UserId} (huser : p user = true) :
    Echoes p (listTriggers config user r) (listTriggers config user part) := by
  refine ⟨?_, h⟩
  rw [Registry.listTriggers, Registry.listTriggers, h.entries, List.filter_filter]
  have hmine : r.entries.filter (fun e => e.user == user && p e.user) =
      r.entries.filter fun e => e.user == user := by
    apply List.filter_congr
    intro e _
    cases huser' : e.user == user with
    | false => rfl
    | true =>
        rw [eq_of_beq huser', huser]
        rfl
  rw [hmine]

theorem getTarget (h : Part p r part) {user : UserId} (huser : p user = true)
    (target : TargetId) :
    Echoes p (getTarget config user target r) (getTarget config user target part) := by
  rw [Registry.getTarget, Registry.getTarget, h.listed? huser]
  cases r.listed? user target with
  | none => exact ⟨rfl, h⟩
  | some found => exact ⟨rfl, h⟩

theorem step (h : Part p r part) (request : Request)
    (huser : forall user, request.user? = some user -> p user = true) :
    Echoes p (step config things request r) (step config things request part) := by
  cases request with
  | create request => exact (h.create request (huser _ rfl)).answered .created
  | delete user id => exact (h.delete (huser _ rfl) id).answered fun _ => .deleted
  | addTarget user id spec => exact (h.addTarget (huser _ rfl) id spec).answered .added
  | removeTarget user target =>
      exact (h.removeTarget (huser _ rfl) target).answered fun _ => .removed
  | getTrigger user id => exact (h.read (huser _ rfl) _ id).answered .trigger
  | listTriggers user => exact (h.listTriggers (huser _ rfl)).answered .triggers
  | listTargets user id => exact (h.read (huser _ rfl) _ id).answered .targets
  | getTarget user target => exact (h.getTarget (huser _ rfl) target).answered .target
  | recover => exact ⟨rfl, h⟩

end Part

/-!
# Requests of other accounts
-/

theorem filter_user_of_ne {user : UserId} (huser : p user = false) {keep : Entry -> Bool}
    {entries : List Entry} (h : forall e, e ∈ entries -> e.user ≠ user -> keep e = true) :
    (entries.filter keep).filter (fun e => p e.user) = entries.filter fun e => p e.user := by
  rw [List.filter_filter]
  apply List.filter_congr
  intro e he
  cases hp : p e.user with
  | false => rfl
  | true =>
      rw [Bool.true_and]
      apply h e he
      rintro rfl
      rw [hp] at huser
      cases huser

theorem filter_map_of_ne {user : UserId} (huser : p user = false) (change : Entry -> Entry)
    (hchange : forall e, (change e).user = e.user) {entries : List Entry}
    (h : forall e, e ∈ entries -> e.user ≠ user -> change e = e) :
    (entries.map change).filter (fun e => p e.user) = entries.filter fun e => p e.user := by
  rw [filter_map_users change hchange]
  refine (List.map_congr_left ?_).trans (List.map_id _)
  intro e he
  rcases List.mem_filter.mp he with ⟨hmem, hp⟩
  apply h e hmem
  rintro rfl
  rw [hp] at huser
  cases huser

namespace Mirrors

variable {naming : ResourceNaming} {w : World}

theorem entry_of_listed (h : r.Mirrors naming things w) {e other : Entry} (he : e ∈ r.entries)
    (hother : other ∈ r.entries) {l m : Listed} (hl : l ∈ e.targets) (hm : m ∈ other.targets)
    (hid : l.id = m.id) : e = other := by
  have hrows := List.inj_on_of_nodup_map h.integrity.store.target_ids
    (h.mem_targets he hl) (h.mem_targets hother hm) hid
  exact List.inj_on_of_nodup_map h.entry_ids he hother (congrArg Target.trigger hrows)

theorem part_step (h : r.Mirrors naming things w) (request : Request)
    (huser : forall user, request.user? = some user -> p user = false) :
    (step config things request r).2.entries.filter (fun e => p e.user) =
      r.entries.filter fun e => p e.user := by
  have hread : forall {α : Type} (f : Entry -> α) user id,
      (read f user id r).2.entries = r.entries := by
    intro α f user id
    rw [read]
    split <;> rfl
  cases request with
  | create request =>
      rw [step, answered_snd, create]
      split
      · rfl
      · rw [createValid]
        split
        · rfl
        · have hforeign := huser _ rfl
          rw [List.filter_append, List.filter_cons_of_neg, List.filter_nil, List.append_nil]
          rw [newEntry, hforeign]
          exact Bool.false_ne_true
  | delete user id =>
      rw [step, answered_snd, delete]
      cases hentry : r.entry? user id with
      | none => rfl
      | some e =>
          rcases entry?_eq_some hentry with ⟨he, rfl, rfl⟩
          apply filter_user_of_ne (huser _ rfl)
          intro other hother hne
          rw [bne_iff_ne]
          intro hid
          exact hne (congrArg Entry.user (List.inj_on_of_nodup_map h.entry_ids hother he hid))
  | addTarget user id spec =>
      rw [step, answered_snd, addTarget]
      split
      · rfl
      · cases hentry : r.entry? user id with
        | none => rfl
        | some e =>
            rcases entry?_eq_some hentry with ⟨he, rfl, rfl⟩
            simp only
            split
            · rfl
            · apply filter_map_of_ne (huser _ rfl) _ (user_withTarget _ _)
              intro other hother hne
              apply if_neg
              intro hid
              exact hne (congrArg Entry.user (List.inj_on_of_nodup_map h.entry_ids hother he hid))
  | removeTarget user target =>
      rw [step, answered_snd, removeTarget]
      cases hlisted : r.listed? user target with
      | none => rfl
      | some found =>
          rcases found with ⟨e, l⟩
          rcases listed?_eq_some hlisted with ⟨he, rfl, hl, rfl⟩
          show (withoutTarget l.id r.entries).filter _ = _
          refine filter_map_of_ne (huser _ rfl) _ (by intro e; rfl) ?_
          intro other hother hne
          have hnone : forall m, m ∈ other.targets -> (m.id != l.id) = true := by
            intro m hm
            rw [bne_iff_ne]
            intro hid
            exact hne (congrArg Entry.user (h.entry_of_listed hother he hm hl hid))
          rw [List.filter_eq_self.mpr hnone]
  | getTrigger user id => exact congrArg _ (hread _ _ _)
  | listTriggers user => rfl
  | listTargets user id => exact congrArg _ (hread _ _ _)
  | getTarget user target =>
      rw [step, answered_snd, getTarget]
      split <;> rfl
  | recover => rfl

end Mirrors
end Registry

/-!
# Errands
-/

structure Errand where
  request : Request
  supply : List Uuid

namespace Errand

def isFrom (user : UserId) (errand : Errand) : Bool :=
  errand.request.user? == some user

def source (past : List Uuid) (errand : Errand) : IdSource :=
  (IdSource.ofList (past ++ errand.supply)).skip past.length

end Errand

def World.attend (config : Config) :
    List Errand -> World -> List (Errand × Except TriggerError Answer)
  | [], _ => []
  | errand :: errands, w =>
      let served := (errand.request.operation config).run.run config.callTimeout
        { w with ids := .ofList errand.supply }
      (errand, served.1) :: attend config errands served.2

theorem Registry.Shows.withIds {naming : ResourceNaming} {things : List Thing} {r : Registry}
    {w : World} (h : r.Shows naming things w) (faults : FaultPlan) (ids : IdSource) :
    Registry.Shows naming things ⟨r.entries, ids⟩ { w with faults, ids } :=
  ⟨h.things, h.triggers, h.targets, h.owned, h.topics, h.subscriptions, h.rules,
    h.deliveries, rfl⟩

structure World.Between (config : Config) (things : List Thing) (entries : List Entry)
    (past : List Uuid) (w : World) : Prop where
  shows : forall ids, Registry.Shows config.naming things ⟨entries, ids⟩ { w with ids }
  integrity : w.Integrity
  drawn : forall e, e ∈ entries -> forall u, u ∈ e.uuids -> u ∈ past
  locks : w.locks = .empty
  faults : w.faults.Within noFault config.callTimeout

namespace World.Between

variable {config : Config} {things : List Thing} {entries : List Entry}
  {past : List Uuid} {w : World}

theorem mirrors (h : w.Between config things entries past) (errand : Errand) :
    Registry.Mirrors config.naming things ⟨entries, errand.source past⟩
      { w with ids := errand.source past } :=
  ⟨h.shows _, ⟨h.integrity.store, h.integrity.broker, h.integrity.engine⟩,
    fun e he u hu => IdSource.gave_of_mem _ (h.drawn e he u hu)⟩

theorem attend (h : w.Between config things entries past) {errand : Errand}
    (hfresh : (past ++ errand.supply).Nodup)
    (hsupply : errand.request.draws ≤ errand.supply.length) :
    exists v,
      (errand.request.operation config).run.run config.callTimeout
          { w with ids := .ofList errand.supply } =
        ((Registry.step config things errand.request ⟨entries, errand.source past⟩).1, v) ∧
      v.Between config things
        (Registry.step config things errand.request ⟨entries, errand.source past⟩).2.entries
        (past ++ errand.supply) := by
  have hsequence := (Registry.precedes_step config things errand.request
    ⟨entries, errand.source past⟩).sequence
  have hdrawn : (Registry.step config things errand.request
      ⟨entries, errand.source past⟩).2.ids.drawn ≤ (past ++ errand.supply).length := by
    refine Nat.le_trans (Registry.drawn_step_le errand.request _) ?_
    rw [List.length_append]
    exact Nat.add_le_add (Nat.le_of_eq (Nat.zero_add _)) hsupply
  rcases (h.mirrors errand).follows_step h.locks errand.request
    (IdSource.unrepeated_of_nodup hsequence hdrawn hfresh) with ⟨v, hplay, hmirrors, hlocks⟩
  rcases Saga.play_alike (errand.request.operation config).run
    (IdSource.alike_ofList past errand.supply : (errand.source past).Alike _)
    (w := { w with ids := errand.source past }) with ⟨later, halike⟩
  rcases Saga.run_of_harmless (w := { w with ids := .ofList errand.supply }) h.faults
    (errand.request.operation config).run with ⟨p, hp, hrun⟩
  rw [hplay] at halike
  rw [halike] at hrun
  refine ⟨_, hrun, ?_⟩
  constructor
  case shows => exact hmirrors.shows.withIds p
  case integrity =>
    exact ⟨hmirrors.integrity.store, hmirrors.integrity.broker, hmirrors.integrity.engine⟩
  case drawn =>
    exact fun e he u hu => IdSource.mem_of_gave hsequence hdrawn (hmirrors.drawn e he u hu)
  case locks => exact hlocks
  case faults => exact hp

end World.Between

/-!
# Accounts on their own
-/

namespace World.Between

variable {config : Config} {things : List Thing} {entries : List Entry} {user : UserId}
  {past pastAlone : List Uuid} {w v : World}

/-- The answers to an account stay the same as long as the second run keeps its part of
the registry. -/
theorem attend_part (errands : List Errand) (h : w.Between config things entries past)
    (halone : v.Between config things (entries.filter fun e => e.user == user) pastAlone)
    (hfresh : (past ++ errands.flatMap (·.supply)).Nodup)
    (hfreshAlone :
      (pastAlone ++ (errands.filter (Errand.isFrom user)).flatMap (·.supply)).Nodup)
    (hsupply : forall errand, errand ∈ errands ->
      errand.request.draws ≤ errand.supply.length) :
    (World.attend config errands w).filter (fun served => served.1.isFrom user) =
      World.attend config (errands.filter (Errand.isFrom user)) v := by
  induction errands generalizing entries past pastAlone w v with
  | nil => rfl
  | cons errand errands ih =>
      rw [List.flatMap_cons, ← List.append_assoc] at hfresh
      have hdraws := hsupply errand List.mem_cons_self
      have hlater := fun other hother => hsupply other (List.mem_cons_of_mem errand hother)
      rcases h.attend (List.Nodup.of_append_left hfresh) hdraws with ⟨w', hrun, hnext⟩
      rw [World.attend, hrun]
      cases hmine : errand.isFrom user with
      | true =>
          -- the account is answered alike from its part of the registry
          have huser : forall other, errand.request.user? = some other ->
              (other == user) = true := by
            intro other hother
            rw [Errand.isFrom, hother] at hmine
            exact beq_iff_eq.mpr (Option.some.inj (eq_of_beq hmine))
          have hpart : Registry.Part (· == user) ⟨entries, errand.source past⟩
              ⟨entries.filter fun e => e.user == user, errand.source pastAlone⟩ :=
            ⟨rfl, fun k => (IdSource.alike_ofList past errand.supply k).trans
              (IdSource.alike_ofList pastAlone errand.supply k).symm⟩
          have hecho : Registry.Echoes (· == user)
              (Registry.step config things errand.request ⟨entries, errand.source past⟩)
              (Registry.step config things errand.request
                ⟨entries.filter fun e => e.user == user, errand.source pastAlone⟩) :=
            hpart.step errand.request huser
          rw [List.filter_cons_of_pos hmine, List.flatMap_cons, ← List.append_assoc] at hfreshAlone
          rcases halone.attend (List.Nodup.of_append_left hfreshAlone) hdraws with
            ⟨v', hrunAlone, hnextAlone⟩
          rw [hecho.result] at hrunAlone
          rw [hecho.part.entries] at hnextAlone
          have hrest := ih hnext hnextAlone hfresh hfreshAlone hlater
          rw [List.filter_cons_of_pos hmine, World.attend, hrunAlone, ← hrest]
          exact List.filter_cons_of_pos hmine
      | false =>
          -- somebody else leaves that part as it is
          have huser : forall other, errand.request.user? = some other ->
              (other == user) = false := by
            intro other hother
            rw [Errand.isFrom, hother] at hmine
            rw [← hmine]
            rfl
          have hkept : (Registry.step config things errand.request
                ⟨entries, errand.source past⟩).2.entries.filter (fun e => e.user == user) =
              entries.filter fun e => e.user == user :=
            (h.mirrors errand).part_step errand.request huser
          have hnot : ¬ errand.isFrom user = true := by simp [hmine]
          rw [List.filter_cons_of_neg hnot] at hfreshAlone
          rw [← hkept] at halone
          rw [List.filter_cons_of_neg (by simp [hmine]), List.filter_cons_of_neg hnot]
          exact ih hnext halone hfresh hfreshAlone hlater

end World.Between

theorem World.between_ofThings (config : Config) (things : List Thing) (ids : IdSource)
    {faults : FaultPlan} (hfaults : faults.Within noFault config.callTimeout) :
    World.Between config (ofThings things ids).store.things [] []
      { ofThings things ids with faults } where
  shows later := (Registry.mirrors_ofThings config.naming things ids).shows.withIds faults later
  integrity := ((Registry.mirrors_ofThings config.naming things ids).around faults _).integrity
  drawn := fun _ he => absurd he List.not_mem_nil
  locks := rfl
  faults := hfaults

/-- Each account is answered as if the errands of all others were left out. -/
theorem World.attend_alone (config : Config) (things : List Thing) (ids : IdSource)
    {faults : FaultPlan} (hfaults : faults.Within noFault config.callTimeout)
    (errands : List Errand) (hfresh : (errands.flatMap (·.supply)).Nodup)
    (hsupply : forall errand, errand ∈ errands ->
      errand.request.draws ≤ errand.supply.length) (user : UserId) :
    (attend config errands { ofThings things ids with faults }).filter
        (fun served => served.1.isFrom user) =
      attend config (errands.filter (Errand.isFrom user))
        { ofThings things ids with faults } := by
  have hstart := between_ofThings config things ids hfaults
  have hkept : (errands.filter (Errand.isFrom user)).Sublist errands :=
    List.filter_sublist
  have hfreshAlone := hfresh.sublist (hkept.flatMap (·.supply))
  exact hstart.attend_part errands hstart hfresh hfreshAlone hsupply

/-- Two neighbours, each of whom tries to get at what the other one has. -/
def neighbours : List Errand :=
  [⟨.create Lifecycle.heatAlarm, (List.range 3).map Uuid.ofNat⟩,
    ⟨.create { Lifecycle.heatAlarm with user := ⟨8⟩ }, (List.range' 3 3).map Uuid.ofNat⟩,
    ⟨.create { Lifecycle.heatAlarm with user := ⟨8⟩, thingName := "kettle" },
      (List.range' 6 3).map Uuid.ofNat⟩,
    ⟨.removeTarget ⟨8⟩ ⟨Uuid.ofNat 2⟩, []⟩,
    ⟨.addTarget ⟨8⟩ ⟨Uuid.ofNat 0⟩ ⟨"sms", "+4912345678"⟩, (List.range' 9 2).map Uuid.ofNat⟩,
    ⟨.delete ⟨8⟩ ⟨Uuid.ofNat 0⟩, []⟩,
    ⟨.addTarget ⟨7⟩ ⟨Uuid.ofNat 0⟩ ⟨"sms", "+4912345678"⟩, (List.range' 11 2).map Uuid.ofNat⟩,
    ⟨.listTargets ⟨7⟩ ⟨Uuid.ofNat 0⟩, []⟩,
    ⟨.getTrigger ⟨7⟩ ⟨Uuid.ofNat 6⟩, []⟩,
    ⟨.delete ⟨8⟩ ⟨Uuid.ofNat 6⟩, []⟩,
    ⟨.listTriggers ⟨7⟩, []⟩]

def duplex : World :=
  .ofThings [⟨⟨1⟩, "thermostat", ⟨7⟩⟩, ⟨⟨2⟩, "kettle", ⟨8⟩⟩] ⟨Uuid.ofNat, 0⟩

theorem neighbours_alone :
    ((duplex.attend .standard neighbours).map (·.2.isOk) =
      [true, false, true, false, false, false, true, true, false, true, true]) ∧
    forall user,
      (duplex.attend .standard neighbours).filter
          (fun served => served.1.isFrom user) =
        duplex.attend .standard (neighbours.filter (Errand.isFrom user)) := by
  have hcalm : FaultPlan.empty.Within noFault Config.standard.callTimeout :=
    FaultPlan.within_of_calm rfl _
  refine ⟨by decide +kernel, ?_⟩
  exact World.attend_alone .standard _ _ hcalm neighbours (by decide +kernel) (by decide +kernel)

end TelemetryTriggers
