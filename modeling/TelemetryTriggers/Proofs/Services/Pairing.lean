import TelemetryTriggers.Proofs.Services.Addition

/-!
# Rows of targets and their subscriptions

The row of a target stands for one subscription to the topic of its trigger.  The broker
serves a list of rows when the subscriptions to a topic are the ones that the rows stand
for, one for one, as far as a view of subscriptions tells them apart.  Each call that
writes a target or a subscription does the same to the rows as to what they stand for.

Main definition: `Broker.Serves`.
-/

namespace TelemetryTriggers

def Target.subscribed (topic : TopicHandle) (row : Target) : Subscription :=
  ⟨row.subscription, topic, row.kind.protocol, row.address⟩

/-- The subscriptions to a topic are those of the rows, one for one. -/
def Broker.Serves {β : Type} (view : Subscription -> β) (topic : TopicHandle)
    (rows : List Target) (b : Broker) : Prop :=
  (rows.map fun row => view (row.subscribed topic)).Perm ((b.subscriptionsOf topic).map view)

namespace Broker

variable {β : Type} {view : Subscription -> β} {topic : TopicHandle} {rows : List Target}
  {b : Broker}

theorem Serves.nodup (h : b.Serves view topic rows) (hb : b.Integrity)
    (key : β -> SubscriptionHandle) (hkey : forall s, key (view s) = s.handle) :
    (rows.map (·.subscription)).Nodup := by
  have hhandles := h.map key
  rw [List.map_map, List.map_map] at hhandles
  have hrows : rows.map (key ∘ fun row => view (row.subscribed topic)) =
      rows.map (·.subscription) :=
    List.map_congr_left fun row _ => hkey (row.subscribed topic)
  have hsubscriptions : (b.subscriptionsOf topic).map (key ∘ view) =
      (b.subscriptionsOf topic).map (·.handle) :=
    List.map_congr_left fun s _ => hkey s
  rw [hrows, hsubscriptions] at hhandles
  exact hhandles.nodup_iff.mpr (nodup_map_filter hb.subscription_handles _)

theorem Serves.subscribe (h : b.Serves view topic rows) (row : Target) :
    Broker.Serves view topic (rows ++ [row])
      { b with subscriptions := b.subscriptions ++ [row.subscribed topic] } := by
  have hto : ((row.subscribed topic).topic == topic) = true := beq_self_eq_true topic
  unfold Serves subscriptionsOf at h ⊢
  rw [List.filter_append, List.map_append, List.map_append,
    List.filter_cons_of_pos (by exact hto)]
  exact h.append_right _

theorem Serves.unsubscribe (h : b.Serves view topic rows) (handle : SubscriptionHandle)
    (key : β -> SubscriptionHandle) (hkey : forall s, key (view s) = s.handle) :
    Broker.Serves view topic (rows.filter (·.subscription != handle))
      { b with subscriptions := b.subscriptions.filter (·.handle != handle) } := by
  have hfiltered := h.filter fun a => key a != handle
  rw [List.filter_map, List.filter_map] at hfiltered
  have hrows : rows.filter ((fun a => key a != handle) ∘ fun row => view (row.subscribed topic)) =
      rows.filter (·.subscription != handle) :=
    List.filter_congr fun row _ => congrArg (· != handle) (hkey (row.subscribed topic))
  have hsubscriptions : (b.subscriptionsOf topic).filter ((fun a => key a != handle) ∘ view) =
      (b.subscriptions.filter (·.handle != handle)).filter (·.topic == topic) := by
    rw [subscriptionsOf, List.filter_comm]
    congr 1
    exact List.filter_congr fun s _ => congrArg (· != handle) (hkey s)
  rw [hrows, hsubscriptions] at hfiltered
  exact hfiltered

end Broker

theorem Call.serves_of_subscribe {β : Type} {view : Subscription -> β} {topic : TopicHandle}
    {rows : List Target} {row : Target} {w v : World} {handle : SubscriptionHandle}
    (h : w.broker.Serves view topic rows)
    (hfresh : forall s, s ∈ w.broker.subscriptions ->
      s.handle ≠ Broker.subscriptionHandle topic w.ids.next.1)
    (hdone : (Call.subscribe topic row.kind.protocol row.address).perform w = (.ok handle, v))
    (hrow : row.subscription = handle) : v.broker.Serves view topic (rows ++ [row]) := by
  rcases Call.subscribe_ok hdone with ⟨_, hhandle, rfl⟩
  have hkept : w.broker.subscriptions.filter (·.handle != handle) = w.broker.subscriptions := by
    rw [List.filter_eq_self]
    intro s hs
    rw [bne_iff_ne, hhandle]
    exact hfresh s hs
  have hserves := h.subscribe row
  rw [Target.subscribed, hrow] at hserves
  rw [hkept]
  exact hserves

namespace Store

theorem filter_subscription {rows : List Target} {row : Target}
    (hids : (rows.map (·.id)).Nodup) (hhandles : (rows.map (·.subscription)).Nodup)
    (hrow : row ∈ rows) :
    rows.filter (·.subscription != row.subscription) = rows.filter (·.id != row.id) := by
  apply List.filter_congr
  intro q hq
  rw [Bool.eq_iff_iff, bne_iff_ne, bne_iff_ne, not_iff_not]
  constructor
  · intro hsame
    rw [List.inj_on_of_nodup_map hhandles hq hrow hsame]
  · intro hsame
    rw [List.inj_on_of_nodup_map hids hq hrow hsame]

theorem targetsOf_concat {s : Store} {row : Target} {id : TriggerId} (h : row.trigger = id) :
    Store.targetsOf { s with targets := s.targets ++ [row] } id = s.targetsOf id ++ [row] := by
  rw [targetsOf, targetsOf, List.filter_append, List.filter_cons_of_pos (by simp [h]),
    List.filter_nil]

theorem targetsOf_filter (s : Store) (id : TriggerId) (p : Target -> Bool) :
    Store.targetsOf { s with targets := s.targets.filter p } id = (s.targetsOf id).filter p := by
  rw [targetsOf, targetsOf, List.filter_comm]

theorem Integrity.nodup_targetsOf {s : Store} (h : s.Integrity) (id : TriggerId) :
    ((s.targetsOf id).map (·.id)).Nodup :=
  nodup_map_filter h.target_ids _

end Store
end TelemetryTriggers
