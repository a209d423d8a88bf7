import TelemetryTriggers.Services.Fault
import TelemetryTriggers.Services.Lock
import TelemetryTriggers.Services.RuleEngine
import TelemetryTriggers.Services.Store

/-!
# The services together

Main definitions: `World`, the three services with the fault plan they share, the
locks on triggers and the source of fresh identifiers; `Counts`, how much the
services hold.
-/

namespace TelemetryTriggers

structure World where
  store : Store
  broker : Broker
  engine : RuleEngine
  faults : FaultPlan
  locks : LockTable
  ids : IdSource

structure Counts where
  triggers : Nat
  targets : Nat
  topics : Nat
  subscriptions : Nat
  rules : Nat
  deliveries : Nat
deriving DecidableEq

namespace World

def ofThings (things : List Thing) (ids : IdSource) : World where
  store := things.foldl Store.addThing Store.empty
  broker := Broker.empty
  engine := RuleEngine.empty
  faults := FaultPlan.empty
  locks := LockTable.empty
  ids := ids

def counts (w : World) : Counts where
  triggers := w.store.triggers.length
  targets := w.store.targets.length
  topics := w.broker.topics.length
  subscriptions := w.broker.subscriptions.length
  rules := w.engine.rules.length
  deliveries := w.broker.deliveries.length

def dispatch (w : World) (u : ShadowUpdate) : List Delivery × World :=
  let (made, broker) := w.engine.dispatch u w.broker
  (made, { w with broker })

end World
end TelemetryTriggers
