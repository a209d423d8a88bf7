import TelemetryTriggers.Error

/-!
# Fault plans

Every call on a service is first put before a fault plan, which may let it pass,
hold it up or refuse it, and which keeps a log of all calls.

Main definitions: `Fault`, what is planned for an operation; `FaultPlan` with
`set`, `clear` and `clearAll`; `FaultPlan.check`, the verdict on one call.
-/

namespace TelemetryTriggers

inductive Fault
  | always (error : ServiceError)
  /-- The next `count` calls fail, and in any case the next one. -/
  | times (error : ServiceError) (count : Nat)
  /-- `count` calls pass, then every call fails. -/
  | after (error : ServiceError) (count : Nat)
  /-- Every call takes some milliseconds longer. -/
  | delay (millis : Nat)
deriving DecidableEq

inductive Verdict
  | pass
  | pause (millis : Nat)
  | refuse (error : ServiceError)
deriving DecidableEq

/-- The faults planned for operations, by their names, and the log of calls, first
call first. -/
structure FaultPlan where
  planned : List (String × Fault)
  calls : List String
deriving DecidableEq

namespace FaultPlan

def empty : FaultPlan :=
  ⟨[], []⟩

def fault? (p : FaultPlan) (operation : String) : Option Fault :=
  p.planned.lookup operation

def clear (p : FaultPlan) (operation : String) : FaultPlan :=
  { p with planned := p.planned.filter fun entry => entry.1 != operation }

def set (p : FaultPlan) (operation : String) (fault : Fault) : FaultPlan :=
  { p with planned := (operation, fault) :: (p.clear operation).planned }

def plan (p : FaultPlan) (operation : String) : Option Fault → FaultPlan
  | some fault => p.set operation fault
  | none => p.clear operation

/-- Plans nothing at all.  The log stays. -/
def clearAll (p : FaultPlan) : FaultPlan :=
  { p with planned := [] }

def callCount (p : FaultPlan) (operation : String) : Nat :=
  p.calls.count operation

def verdict : Option Fault → Verdict
  | none => .pass
  | some (.always error) => .refuse error
  | some (.times error _) => .refuse error
  | some (.after error count) => if count = 0 then .refuse error else .pass
  | some (.delay millis) => .pause millis

def worn : Option Fault → Option Fault
  | some (.times error count) => if 1 < count then some (.times error (count - 1)) else none
  | some (.after error count) => some (.after error (count - 1))
  | fault => fault

def check (p : FaultPlan) (operation : String) : Verdict × FaultPlan :=
  let fault := p.fault? operation
  (verdict fault, { p.plan operation (worn fault) with calls := p.calls ++ [operation] })

/-!
# What is planned after each change
-/

theorem lookup_filter_self (entries : List (String × Fault)) (operation : String) :
    (entries.filter fun entry => entry.1 != operation).lookup operation = none := by
  rw [List.lookup_eq_none_iff]
  intro entry hentry
  have hne : entry.1 ≠ operation := by simpa using (List.mem_filter.mp hentry).2
  simpa using Ne.symm hne

theorem lookup_filter_of_ne (entries : List (String × Fault)) {operation other : String}
    (h : other ≠ operation) :
    (entries.filter fun entry => entry.1 != operation).lookup other =
      entries.lookup other := by
  induction entries with
  | nil => rfl
  | cons entry entries ih =>
      rcases entry with ⟨name, fault⟩
      by_cases hname : name = operation
      · have hne : (other == name) = false := by simpa [hname] using h
        rw [List.filter_cons_of_neg (by simpa using hname), ih, List.lookup_cons, hne]
      · rw [List.filter_cons_of_pos (by simpa using hname), List.lookup_cons, ih,
          List.lookup_cons]

@[simp] theorem fault?_plan_self (p : FaultPlan) (operation : String)
    (fault : Option Fault) : (p.plan operation fault).fault? operation = fault := by
  cases fault with
  | none => exact lookup_filter_self p.planned operation
  | some fault => simp [plan, set, fault?]

theorem fault?_plan_of_ne (p : FaultPlan) {operation other : String}
    (fault : Option Fault) (h : other ≠ operation) :
    (p.plan operation fault).fault? other = p.fault? other := by
  have hclear : (p.clear operation).fault? other = p.fault? other :=
    lookup_filter_of_ne p.planned h
  cases fault with
  | none => exact hclear
  | some fault =>
      have hne : (other == operation) = false := by simpa using h
      simpa [plan, set, fault?, List.lookup_cons, hne] using hclear

@[simp] theorem calls_check (p : FaultPlan) (operation : String) :
    (p.check operation).2.calls = p.calls ++ [operation] :=
  rfl

theorem fault?_check_self (p : FaultPlan) (operation : String) :
    (p.check operation).2.fault? operation = worn (p.fault? operation) :=
  fault?_plan_self p operation _

theorem fault?_check_of_ne (p : FaultPlan) {operation other : String}
    (h : other ≠ operation) :
    (p.check operation).2.fault? other = p.fault? other :=
  fault?_plan_of_ne p _ h

end FaultPlan
end TelemetryTriggers
