import SafetyCase.Document.Basic
import SafetyCase.Store.Notice
/-! The store of cases: the stored documents in the order in which they came, the number of identifiers
issued so far, the present moment, the calls that are out of order, and a journal of notices. Documents
are values, so what a caller holds never changes with the store. -/
namespace SafetyCase

structure Outage where
  reads : Bool := false
  replacements : Bool := false
  phaseMoves : Bool := false
  deriving DecidableEq

structure Store where
  cases : List Document := []
  issued : Nat := 0
  now : Moment
  outage : Outage := {}
  journal : List Notice := []

namespace Store

def find? (s : Store) (id : Identifier) : Option Document := s.cases.find? (·.id = id)

def putIn (d : Document) : List Document → List Document
  | [] => [d]
  | c :: rest => if c.id = d.id then d :: rest else c :: putIn d rest

def put (s : Store) (d : Document) : Store := { s with cases := putIn d s.cases }

def save (s : Store) (d : Document) : Store := s.put { d with updatedAt := s.now }

def drop (s : Store) (id : Identifier) : Store := { s with cases := s.cases.filter (·.id ≠ id) }

def note (s : Store) (n : Notice) : Store := { s with journal := s.journal ++ [n] }

def freshId (s : Store) : Identifier := .numbered (s.issued + 1)

def issue (s : Store) : Store := { s with issued := s.issued + 1 }

def get (s : Store) (id : Identifier) : Except ReadFault Document :=
  if s.outage.reads then .error .unavailable
  else match s.find? id with
    | some d => .ok d
    | none => .error (.unknownCase id)

def list (s : Store) : List Document := s.cases.mergeSort fun a b => a.createdAt ≤ b.createdAt

@[simp] theorem casesNote (s : Store) (n : Notice) : (s.note n).cases = s.cases := rfl
@[simp] theorem casesIssue (s : Store) : s.issue.cases = s.cases := rfl
@[simp] theorem issuedNote (s : Store) (n : Notice) : (s.note n).issued = s.issued := rfl

theorem findPutInSame (d : Document) (cs : List Document) :
    (putIn d cs).find? (·.id = d.id) = some d := by
  induction cs with
  | nil => simp [putIn]
  | cons c rest ih =>
    simp only [putIn]
    split
    · simp
    · simp_all

theorem findPutInOther (d : Document) (cs : List Document) {id : Identifier} (h : id ≠ d.id) :
    (putIn d cs).find? (·.id = id) = cs.find? (·.id = id) := by
  induction cs with
  | nil => simp [putIn, Ne.symm h]
  | cons c rest ih =>
    simp only [putIn]
    split
    · simp_all [Ne.symm h]
    · simp [List.find?_cons, ih]

@[simp] theorem findPutSame (s : Store) (d : Document) : (s.put d).find? d.id = some d :=
  findPutInSame d s.cases

theorem findPutOther (s : Store) (d : Document) {id : Identifier} (h : id ≠ d.id) :
    (s.put d).find? id = s.find? id :=
  findPutInOther d s.cases h

end Store
end SafetyCase
