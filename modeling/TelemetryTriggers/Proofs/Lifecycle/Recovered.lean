import TelemetryTriggers.Proofs.Lifecycle.Create
import TelemetryTriggers.Proofs.Recovery

/-!
# A sweep removes every trace of a creation

A creation that fails, or that is stopped dead before it is complete, can leave a
draft with any part of what belongs to it.  A sweep removes all of that and does to
the rest what it would have done without the creation.

Main definition: `World.recovered`, the services after a sweep.  The main statement
is `Lifecycle.create_recovered`.
-/

namespace TelemetryTriggers

/-!
# Sweeping a residue
-/

section Residue

variable {naming : ResourceNaming} {id : TriggerId} {w v : World}

theorem abandoned_of_residue (hw : w.Integrity) (hv : v.Integrity)
    (hfresh : w.Fresh naming id) (h : w.Residue naming id v) (hlocks : v.locks = w.locks) :
    v.abandoned = w.abandoned := by
  funext other
  have hcommitted : v.store.isCommitted other = w.store.isCommitted other := by
    rw [Bool.eq_iff_iff, hv.store.isCommitted_iff, hw.store.isCommitted_iff]
    constructor
    · intro h
      rcases h with ⟨t, ht, hid, hprovisioned⟩
      have hother : t.id ≠ id := by
        intro heq
        rw [h.draft t ht heq] at hprovisioned
        cases hprovisioned
      have hitem : v.Holds (.trigger t) := ht
      exact ⟨t, h.same.holds hitem fun heq => hother (Option.some.inj heq), hid,
        hprovisioned⟩
    · intro h
      rcases h with ⟨t, ht, hid, hprovisioned⟩
      have hitem : w.Holds (.trigger t) := ht
      exact ⟨t, h.same.symm.holds hitem (hfresh.owner_ne hw hitem), hid, hprovisioned⟩
  rw [World.abandoned, World.abandoned, hlocks, hcommitted]

theorem any_targets_of_residue (hw : w.Integrity) (hfresh : w.Fresh naming id)
    (h : w.Residue naming id v) (p : TriggerId -> Bool) {s : Subscription}
    (hs : s ∈ w.broker.subscriptions) :
    (v.store.targets.any fun r => p r.trigger && r.subscription == s.handle) =
      w.store.targets.any fun r => p r.trigger && r.subscription == s.handle := by
  have howner : naming.triggerForHandle? s.topic ≠ some id :=
    hfresh.owner_ne hw (show w.Holds (.subscription s) from hs)
  rw [Bool.eq_iff_iff, List.any_eq_true, List.any_eq_true]
  constructor
  · intro h
    rcases h with ⟨r, hr, hany⟩
    have hitem : v.Holds (.target r) := hr
    refine ⟨r, h.same.holds hitem ?_, hany⟩
    intro hid
    rcases h.suffixed r hr (Option.some.inj hid) with ⟨u, hu⟩
    rw [Bool.and_eq_true, beq_iff_eq] at hany
    apply howner
    rw [hw.broker.topic_of_suffixed hs (hany.2.symm.trans hu)]
    exact naming.triggerForHandle?_topicHandle id
  · intro h
    rcases h with ⟨r, hr, hany⟩
    have hitem : w.Holds (.target r) := hr
    exact ⟨r, h.same.symm.holds hitem (hfresh.owner_ne hw hitem), hany⟩

theorem swept_residue (hw : w.Integrity) (hv : v.Integrity) (hfresh : w.Fresh naming id)
    (h : w.Residue naming id v) (hlocks : v.locks = w.locks)
    (hfree : w.locks.isHeld id = false) :
    (v.swept naming).store = (w.swept naming).store ∧
      (v.swept naming).broker = (w.swept naming).broker ∧
      (v.swept naming).engine = (w.swept naming).engine := by
  have habandoned : w.abandoned id = true := by
    have hcommitted : w.store.isCommitted id = false := by
      rw [Bool.eq_false_iff]
      intro hcommitted
      rcases hw.store.isCommitted_iff.mp hcommitted with ⟨t, ht, hid, _⟩
      exact hfresh.row t ht hid
    rw [World.abandoned, hfree, hcommitted]
    rfl
  have hshare : v.share naming (fun owner => !owner.any w.abandoned) =
      w.share naming fun owner => !owner.any w.abandoned :=
    World.share_of_outside (congrArg not habandoned) h.same.outside
  have hsubscriptions :
      ((w.share naming fun owner => !owner.any w.abandoned).subscriptions.filter fun s =>
        !v.store.targets.any fun r => w.abandoned r.trigger && r.subscription == s.handle) =
      (w.share naming fun owner => !owner.any w.abandoned).subscriptions.filter fun s =>
        !w.store.targets.any fun r => w.abandoned r.trigger && r.subscription == s.handle := by
    apply List.filter_congr
    intro s hs
    rw [any_targets_of_residue hw hfresh h w.abandoned (List.mem_of_mem_filter hs)]
  rw [World.swept_eq, World.swept_eq, abandoned_of_residue hw hv hfresh h hlocks, hshare,
    hsubscriptions]
  refine ⟨?_, ?_, rfl⟩
  · show Store.mk v.store.things _ _ = Store.mk w.store.things _ _
    rw [h.same.things]
  · show Broker.mk _ _ v.broker.deliveries = Broker.mk _ _ w.broker.deliveries
    rw [h.same.deliveries]

end Residue

/-!
# Sweeping after a creation
-/

def World.recovered (config : Config) (w : World) : World :=
  ((recover config).run.run config.callTimeout
    { w with faults := w.faults.clearAll, locks := .empty }).2

theorem recovered_eq (config : Config) {w : World} (hw : w.Integrity) :
    exists p, w.recovered config =
      { World.swept config.naming { w with faults := w.faults.clearAll, locks := .empty } with
        faults := p } := by
  have hcalm : ({ w with faults := w.faults.clearAll, locks := .empty } : World).Integrity :=
    ⟨hw.store, hw.broker, hw.engine⟩
  rcases Saga.run_of_harmless
    (w := { w with faults := w.faults.clearAll, locks := .empty })
    (FaultPlan.within_of_calm rfl config.callTimeout) (recover config).run with
    ⟨p, _, hrun⟩
  have hplay : (recover config).run.play
      { w with faults := w.faults.clearAll, locks := .empty } = _ :=
    play_sweep config.naming hcalm
  refine ⟨p, ?_⟩
  rw [World.recovered, hrun, hplay]

namespace Lifecycle

variable {config : Config} {request : CreateRequest} {w v : World}

theorem recovered_of_residue {id : TriggerId} (hw : w.Integrity) (hv : v.Integrity)
    (hfresh : w.Fresh config.naming id) (h : w.Residue config.naming id v) :
    (v.recovered config).store = (w.recovered config).store ∧
      (v.recovered config).broker = (w.recovered config).broker ∧
      (v.recovered config).engine = (w.recovered config).engine := by
  rcases recovered_eq config hw with ⟨p, hrecovered⟩
  rcases recovered_eq config hv with ⟨q, hrecovered'⟩
  rw [hrecovered, hrecovered']
  have hw₀ : ({ w with faults := w.faults.clearAll, locks := .empty } : World).Integrity :=
    ⟨hw.store, hw.broker, hw.engine⟩
  have hv₀ : ({ v with faults := v.faults.clearAll, locks := .empty } : World).Integrity :=
    ⟨hv.store, hv.broker, hv.engine⟩
  have hfresh₀ : World.Fresh config.naming id
      { w with faults := w.faults.clearAll, locks := .empty } :=
    ⟨hfresh.row, hfresh.topic, hfresh.rule⟩
  have hresidue₀ : World.Residue config.naming id
      { w with faults := w.faults.clearAll, locks := .empty }
      { v with faults := v.faults.clearAll, locks := .empty } :=
    ⟨⟨h.same.things, h.same.deliveries, h.same.outside⟩, h.draft, h.suffixed⟩
  exact swept_residue hw₀ hv₀ hfresh₀ hresidue₀ rfl rfl

/-- After a creation that failed, or that was stopped dead before its handles were
written, a sweep leaves what it would have left without the creation. -/
theorem create_recovered (hw : w.Reachable)
    (hfresh : w.Fresh config.naming ⟨w.ids.next.1⟩) :
    (forall e v,
      (create config request).run.run config.callTimeout w = (.error e, v) ->
        (v.recovered config).store = (w.recovered config).store ∧
          (v.recovered config).broker = (w.recovered config).broker ∧
          (v.recovered config).engine = (w.recovered config).engine) ∧
      forall calls v,
        (create config request).run.stopped config.callTimeout calls w = v ->
          v.store.isCommitted ⟨w.ids.next.1⟩ = false ->
            (v.recovered config).store = (w.recovered config).store ∧
              (v.recovered config).broker = (w.recovered config).broker ∧
              (v.recovered config).engine = (w.recovered config).engine := by
  have hfaults := w.faults.within_all config.callTimeout
  constructor
  · intro e v hrun
    have hreturned : v.Integrity ∧ Returned False config.naming ⟨w.ids.next.1⟩ w v :=
      returned_of_error hw.integrity hfresh hfaults nofun hrun
    exact recovered_of_residue hw.integrity hreturned.1 hfresh hreturned.2.residue
  · intro calls v heq hdraft
    rcases heq with rfl
    have hmeets := (create_returned (fun _ _ => True) False hw.integrity hfresh nofun
      request).meets _ w (untouched_start w)
    rcases hmeets.stopped hw.integrity hfaults calls with ⟨hv, hleft | ⟨r, st, hend⟩⟩
    · exact recovered_of_residue hw.integrity hv hfresh hleft
    · cases r with
      | error e => exact recovered_of_residue hw.integrity hv hfresh hend.residue
      | ok details =>
          -- a creation that came to its end has written the handles
          rw [hv.store.isCommitted_iff.mpr hend] at hdraft
          cases hdraft

theorem heatAlarm_recovered :
    (forall e v,
      (create .standard heatAlarm).run.run Config.standard.callTimeout house = (.error e, v) ->
        (v.recovered .standard).store = (house.recovered .standard).store ∧
          (v.recovered .standard).broker = (house.recovered .standard).broker ∧
          (v.recovered .standard).engine = (house.recovered .standard).engine) ∧
      forall calls v,
        (create .standard heatAlarm).run.stopped Config.standard.callTimeout calls house = v ->
          v.store.isCommitted ⟨house.ids.next.1⟩ = false ->
            (v.recovered .standard).store = (house.recovered .standard).store ∧
              (v.recovered .standard).broker = (house.recovered .standard).broker ∧
              (v.recovered .standard).engine = (house.recovered .standard).engine :=
  create_recovered house_reachable (house_fresh _ _)

end Lifecycle
end TelemetryTriggers
