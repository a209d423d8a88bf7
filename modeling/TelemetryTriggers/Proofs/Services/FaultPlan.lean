import Mathlib.Data.List.Basic
import Mathlib.Logic.Function.Iterate
import TelemetryTriggers.Services.Fault

/-!
# Fault plans over many calls

A fault that is planned for an operation decides on the calls of this operation by their
number, whatever else is called or planned in the meantime.  A fault that is to strike a number
of times strikes at least once, be the number zero.

Main definitions: `FaultPlan.Event` and `FaultPlan.follow`, a history of a plan;
`FaultPlan.forecast`, the verdicts that a fault leads to.  The main statement is
`FaultPlan.verdicts_as_planned`.
-/

namespace TelemetryTriggers
namespace FaultPlan

/-!
# Histories
-/

inductive Event
  | check (operation : String)
  | plan (operation : String) (fault : Option Fault)
deriving DecidableEq

def Event.called? : Event -> Option String
  | check operation => some operation
  | plan _ _ => none

def follow : List Event -> FaultPlan -> List (String × Verdict) × FaultPlan
  | [], p => ([], p)
  | .check operation :: events, p =>
      let (verdicts, q) := follow events (p.check operation).2
      ((operation, (p.check operation).1) :: verdicts, q)
  | .plan operation fault :: events, p => follow events (p.plan operation fault)

def callsOf (events : List Event) : List String :=
  events.filterMap Event.called?

def verdictsOn (operation : String) (verdicts : List (String × Verdict)) : List Verdict :=
  (verdicts.filter (·.1 == operation)).map (·.2)

theorem calls_follow (events : List Event) (p : FaultPlan) :
    (follow events p).2.calls = p.calls ++ callsOf events := by
  induction events generalizing p with
  | nil => exact (List.append_nil _).symm
  | cons event events ih =>
      cases event with
      | check operation =>
          show (follow events (p.check operation).2).2.calls = _
          rw [ih, calls_check, List.append_assoc]
          rfl
      | plan operation fault =>
          have hlog : (p.plan operation fault).calls = p.calls := by
            cases fault with
            | none => rfl
            | some fault => rfl
          show (follow events (p.plan operation fault)).2.calls = _
          rw [ih, hlog]
          rfl

/-!
# What a fault leads to
-/

def forecast : Option Fault -> Nat -> List Verdict
  | _, 0 => []
  | fault, n + 1 => verdict fault :: forecast (worn fault) n

theorem forecast_of_worn_eq {fault : Option Fault} (h : worn fault = fault) (n : Nat) :
    forecast fault n = List.replicate n (verdict fault) := by
  induction n with
  | zero => rfl
  | succ n ih => rw [forecast, h, ih, List.replicate_succ]

theorem forecast_times (e : ServiceError) (count n : Nat) :
    forecast (some (.times e count)) n =
      List.replicate (min n (max 1 count)) (.refuse e) ++
        List.replicate (n - max 1 count) .pass := by
  induction n generalizing count with
  | zero => simp only [forecast, Nat.zero_min, Nat.zero_sub, List.replicate_zero, List.append_nil]
  | succ n ih =>
      simp only [forecast, verdict, worn]
      by_cases hmore : 1 < count
      · have hmin : min (n + 1) (max 1 count) = min n (max 1 (count - 1)) + 1 := by omega
        have hrest : n + 1 - max 1 count = n - max 1 (count - 1) := by omega
        rw [if_pos hmore, ih, hmin, hrest, List.replicate_succ, List.cons_append]
      · -- the last refusal
        have hmin : min (n + 1) (max 1 count) = 1 := by omega
        have hrest : n + 1 - max 1 count = n := by omega
        rw [if_neg hmore, forecast_of_worn_eq rfl, hmin, hrest]
        rfl

theorem forecast_after (e : ServiceError) (count n : Nat) :
    forecast (some (.after e count)) n =
      List.replicate (min n count) .pass ++ List.replicate (n - count) (.refuse e) := by
  induction n generalizing count with
  | zero => simp only [forecast, Nat.zero_min, Nat.zero_sub, List.replicate_zero, List.append_nil]
  | succ n ih =>
      cases count with
      | zero =>
          rw [forecast_of_worn_eq rfl, Nat.min_zero, Nat.sub_zero]
          rfl
      | succ count =>
          have hmin : min (n + 1) (count + 1) = min n count + 1 := by omega
          have hrest : n + 1 - (count + 1) = n - count := by omega
          rw [hmin, hrest, List.replicate_succ, List.cons_append, ← ih]
          rfl

/-!
# Calls of one operation among others
-/

def Unplanned (operation : String) (events : List Event) : Prop :=
  forall fault, Event.plan operation fault ∉ events

variable {operation : String} {events : List Event}

theorem follow_unplanned (h : Unplanned operation events) (p : FaultPlan) :
    verdictsOn operation (follow events p).1 =
        forecast (p.fault? operation) ((callsOf events).count operation) ∧
      (follow events p).2.fault? operation =
        worn^[(callsOf events).count operation] (p.fault? operation) := by
  induction events generalizing p with
  | nil => exact ⟨rfl, rfl⟩
  | cons event events ih =>
      have hrest : Unplanned operation events :=
        fun fault hmem => h fault (List.mem_cons_of_mem event hmem)
      cases event with
      | check other =>
          rcases ih hrest (p.check other).2 with ⟨hverdicts, hfault⟩
          have hcalls : callsOf (.check other :: events) = other :: callsOf events := rfl
          have hfollow : follow (.check other :: events) p =
              ((other, (p.check other).1) :: (follow events (p.check other).2).1,
                (follow events (p.check other).2).2) := rfl
          rw [hcalls, hfollow]
          by_cases hsame : other = operation
          · subst hsame
            rw [fault?_check_self] at hverdicts hfault
            rw [List.count_cons_self, Function.iterate_succ_apply, forecast, ← hverdicts]
            refine ⟨?_, hfault⟩
            rw [verdictsOn, List.filter_cons_of_pos (by exact beq_self_eq_true other)]
            rfl
          · rw [fault?_check_of_ne p (Ne.symm hsame)] at hverdicts hfault
            rw [List.count_cons_of_ne hsame, ← hverdicts]
            refine ⟨?_, hfault⟩
            rw [verdictsOn, List.filter_cons_of_neg (by simpa using hsame)]
            rfl
      | plan other fault =>
          have hother : operation ≠ other := by
            rintro rfl
            exact h fault List.mem_cons_self
          rcases ih hrest (p.plan other fault) with ⟨hverdicts, hfault⟩
          rw [fault?_plan_of_ne p fault hother] at hverdicts hfault
          exact ⟨hverdicts, hfault⟩

/-- A planned fault does what it says, whatever other operations are called and whatever is
planned for them: it refuses all calls; or as many as it counts, but at least one, and then
lets all pass; or it lets as many pass as it counts and then refuses all; or it holds all up.
Calls of other operations do not wear it.  The log is the sequence of all calls. -/
theorem verdicts_as_planned (h : Unplanned operation events) (p : FaultPlan) :
    let n := (callsOf events).count operation
    let verdicts := fun fault => verdictsOn operation (follow events (p.set operation fault)).1
    (forall e, verdicts (.always e) = List.replicate n (.refuse e)) ∧
      (forall e count, verdicts (.times e count) =
        List.replicate (min n (max 1 count)) (.refuse e) ++
          List.replicate (n - max 1 count) .pass) ∧
      (forall e count, verdicts (.after e count) =
        List.replicate (min n count) .pass ++ List.replicate (n - count) (.refuse e)) ∧
      (forall millis, verdicts (.delay millis) = List.replicate n (.pause millis)) ∧
      forall fault,
        (follow events (p.set operation fault)).2.fault? operation = worn^[n] (some fault) ∧
        (follow events (p.set operation fault)).2.calls = p.calls ++ callsOf events := by
  intro n verdicts
  have hset : forall fault, (p.set operation fault).fault? operation = some fault :=
    fun fault => fault?_plan_self p operation (some fault)
  have hverdicts : forall fault, verdicts fault = forecast (some fault) n := by
    intro fault
    rw [← hset fault]
    exact (follow_unplanned h (p.set operation fault)).1
  refine ⟨?_, ?_, ?_, ?_, ?_⟩
  · intro e
    rw [hverdicts]
    exact forecast_of_worn_eq rfl n
  · intro e count
    rw [hverdicts]
    exact forecast_times e count n
  · intro e count
    rw [hverdicts]
    exact forecast_after e count n
  · intro millis
    rw [hverdicts]
    exact forecast_of_worn_eq rfl n
  · intro fault
    constructor
    · rw [← hset fault]
      exact (follow_unplanned h (p.set operation fault)).2
    · exact calls_follow events (p.set operation fault)

/-- Three calls of an operation, and between them calls of another one that is given a fault
meanwhile. -/
def busyLine : List Event :=
  [.check "store.get_trigger", .check "broker.subscribe",
    .plan "store.get_trigger" (some (.always (.rejected "quota"))), .check "broker.subscribe",
    .check "store.get_trigger", .check "broker.subscribe"]

theorem busyLine_as_planned :
    Unplanned "broker.subscribe" busyLine ∧
      verdictsOn "broker.subscribe"
        (follow busyLine (empty.set "broker.subscribe" (.times (.unavailable "down") 2))).1 =
          [.refuse (.unavailable "down"), .refuse (.unavailable "down"), .pass] ∧
      verdictsOn "broker.subscribe"
        (follow busyLine (empty.set "broker.subscribe" (.after (.unavailable "down") 2))).1 =
          [.pass, .pass, .refuse (.unavailable "down")] ∧
      (follow busyLine (empty.set "broker.subscribe" (.delay 20))).2.calls = callsOf busyLine := by
  have h : Unplanned "broker.subscribe" busyLine := by
    intro fault hmem
    simp [busyLine] at hmem
  rcases verdicts_as_planned h empty with ⟨_, htimes, hafter, _, hall⟩
  exact ⟨h, htimes (.unavailable "down") 2, hafter (.unavailable "down") 2,
    (hall (.delay 20)).2⟩

/-- A fault that is to strike no call strikes one. -/
theorem idle_fault_strikes :
    ¬ verdictsOn "broker.subscribe" (follow [.check "broker.subscribe"]
        (empty.set "broker.subscribe" (.times (.unavailable "down") 0))).1 =
      List.replicate (min 1 0) (.refuse (.unavailable "down")) ++
        List.replicate (1 - 0) .pass := by
  decide

end FaultPlan
end TelemetryTriggers
