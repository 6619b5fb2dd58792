import SafetyCase.Editor.Desk
/-! The sessions of a service: one for each case, made when the case is first reached, all sharing one undo
slot. Reaching a case drops a snapshot of another one. -/
namespace SafetyCase

structure Registry where
  limit : Option Int := none
  slot : Option Snapshot := none
  sessions : List (Identifier × Session) := []

namespace Registry

def session? (r : Registry) (id : Identifier) : Option Session := r.sessions.lookup id

def file (id : Identifier) (session : Session) : List (Identifier × Session) → List (Identifier × Session)
  | [] => [(id, session)]
  | entry :: rest => if entry.1 = id then (id, session) :: rest else entry :: file id session rest

def discard (r : Registry) (id : Identifier) : Registry := { r with sessions := r.sessions.filter (·.1 ≠ id) }

def desk (r : Registry) (s : Store) (session : Session) : Desk := ⟨s, r.slot, session⟩

def settle (r : Registry) (id : Identifier) (k : Desk) : Registry :=
  { r with slot := k.slot, sessions := file id k.session r.sessions }

def reach (r : Registry) (s : Store) (id : Identifier) : Except Failure Desk × Registry × Store :=
  match r.session? id with
  | some session =>
    let k := (r.desk s session).release id
    (.ok k, { r with slot := k.slot }, k.store)
  | none =>
    match (r.desk s { limit := r.limit }).openCase id with
    | (.error failure, k) => (.error failure, { r with slot := k.slot }, k.store)
    | (.ok _, k) => (.ok k, r.settle id k, k.store)

theorem lookupFile (id : Identifier) (session : Session) (entries : List (Identifier × Session)) :
    (file id session entries).lookup id = some session := by
  induction entries with
  | nil => simp [file]
  | cons entry rest ih =>
    obtain ⟨key, held⟩ := entry
    simp only [file]
    split
    · simp
    · rename_i other
      have differs : (id == key) = false := by simpa using Ne.symm other
      rw [List.lookup_cons, differs, ih]

end Registry
end SafetyCase
