import TelemetryTriggers.Ids

/-!
# Locks on triggers

At most one piece of work runs on a trigger at a time.  Work on a trigger that is
locked does not wait; it is turned away.

Main definitions: `LockTable`; `acquire?`, which fails on a held identifier;
`release`.
-/

namespace TelemetryTriggers

structure LockTable where
  held : List TriggerId
deriving DecidableEq

namespace LockTable

def empty : LockTable :=
  ⟨[]⟩

def isHeld (t : LockTable) (id : TriggerId) : Bool :=
  t.held.contains id

def acquire? (t : LockTable) (id : TriggerId) : Option LockTable :=
  if t.isHeld id then none else some ⟨id :: t.held⟩

def release (t : LockTable) (id : TriggerId) : LockTable :=
  ⟨t.held.filter (· != id)⟩

@[simp] theorem isHeld_release_self (t : LockTable) (id : TriggerId) :
    (t.release id).isHeld id = false := by
  simp [isHeld, release]

theorem isHeld_release_of_ne (t : LockTable) {id other : TriggerId}
    (h : other ≠ id) : (t.release id).isHeld other = t.isHeld other := by
  simp [isHeld, release, h]

theorem isHeld_acquire? {t u : LockTable} {id : TriggerId}
    (h : t.acquire? id = some u) (other : TriggerId) :
    u.isHeld other = (other == id || t.isHeld other) := by
  unfold acquire? at h
  split at h
  · simp at h
  · simp only [Option.some.injEq] at h
    subst h
    rw [Bool.eq_iff_iff]
    simp [isHeld]

theorem acquire?_of_free {t : LockTable} {id : TriggerId} (h : t.isHeld id = false) :
    t.acquire? id = some ⟨id :: t.held⟩ := by
  simp [acquire?, h]

theorem acquire?_eq_none {t : LockTable} {id : TriggerId} :
    t.acquire? id = none ↔ t.isHeld id = true := by
  unfold acquire?
  split
  · rename_i hheld
    simp [hheld]
  · rename_i hfree
    simp [hfree]

theorem release_cons {t : LockTable} {id : TriggerId} (h : t.isHeld id = false) :
    (LockTable.mk (id :: t.held)).release id = t := by
  have hother : t.held.filter (· != id) = t.held := by
    rw [List.filter_eq_self]
    intro other hother
    rw [bne_iff_ne]
    intro heq
    rcases heq with rfl
    have hheld : t.isHeld other = true := by simpa [isHeld] using hother
    rw [h] at hheld
    cases hheld
  simp [release, hother]

theorem acquire?_eq_some {t u : LockTable} {id : TriggerId}
    (h : t.acquire? id = some u) : t.isHeld id = false ∧ u = ⟨id :: t.held⟩ := by
  unfold acquire? at h
  split at h
  · cases h
  · rename_i hfree
    cases h
    exact ⟨by simpa using hfree, rfl⟩

end LockTable
end TelemetryTriggers
