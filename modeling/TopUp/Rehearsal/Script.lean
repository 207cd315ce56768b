import TopUp.Data.Dict
import TopUp.Poll.Loop

/-! # Scripted answers

    In a rehearsal the gateway answers from a script. A call takes the next answer
    for its reference if there is one, else the next of the common answers, else the
    answer that is left when all others are used up. An answer comes after a delay;
    before it comes, the transaction may have settled by itself.
-/

namespace TopUp.Rehearsal

open TopUp.Data TopUp.Gateway

/-- What a call to the gateway ends in. -/
inductive Ending where
  /-- The members of a verified answer. -/
  | members (m : List (String × Json))
  /-- A failure. -/
  | failure (cause : Failure)
  /-- The death of the caller. -/
  | crash

/-- A scripted answer. -/
structure Answer where
  delay : Nat := 0
  settle : Option Status := none
  ending : Ending

/-- A script. -/
structure Script where
  /-- The answers for references. -/
  named : Dict String (List Answer) := .empty
  /-- The common answers. -/
  queue : List Answer := []
  /-- The answer when there is no other. -/
  fallback : Answer

namespace Script

/-- The answer to a call about a reference, and what is left of the script. -/
def take (s : Script) (reference : String) : Answer × Script :=
  match s.named.find? reference with
  | some (a :: rest) => (a, { s with named := s.named.insert reference rest })
  | _ =>
    match s.queue with
    | a :: rest => (a, { s with queue := rest })
    | [] => (s.fallback, s)

end Script

/-- What an ending is to the caller: the answer is read by `read`. -/
def Ending.event (read : List (String × Json) → Outcome) : Ending → Event
  | .members m => .answer (.ok (read m))
  | .failure cause => .answer (.error cause)
  | .crash => .crash

end TopUp.Rehearsal
