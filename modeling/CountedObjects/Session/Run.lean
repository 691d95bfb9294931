import CountedObjects.Session.Activation
import CountedObjects.Session.Handles
import CountedObjects.Session.Start
import CountedObjects.Session.Tables
import CountedObjects.Session.Types

/-! Sessions: steps run one after the other, each with the objects it destroyed. -/
namespace CountedObjects

inductive Step
  | handle (s : HandleStep)
  | type (s : TypeStep)
  | enumeration (s : EnumStep)
  | activator (s : ActivatorStep)
  | list (s : ListStep)
  | queue (s : QueueStep)
  | set (s : SetStep)
  | dictionary (s : DictionaryStep)

/-- The outcome of a step and the sorted labels of the tracked objects it destroyed. -/
structure Reply where
  outcome : Result Answer
  drops : List String

structure Report where
  replies : List Reply
  endDrops : List String

namespace Action

def step : Step → Action Answer
  | .handle s => handleStep s
  | .type s => typeStep s
  | .enumeration s => enumStep s
  | .activator s => activatorStep s
  | .list s => listStep s
  | .queue s => queueStep s
  | .set s => setStep s
  | .dictionary s => dictionaryStep s

end Action

namespace Session

/-- Runs a step to its end, where what it alone held is released. -/
def advance (s : Session) (step : Step) : Reply × Session :=
  let start := s.store.destroyed.size
  let (outcome, s) := Action.step step s
  let s := s.endStep
  (⟨outcome, s.labelsSince start⟩, s)

/-- A step that fails does not end the session. -/
def advanceAll (s : Session) : List Step → List Reply × Session
  | [] => ([], s)
  | step :: steps =>
    let (reply, s) := s.advance step
    let (replies, s) := s.advanceAll steps
    (reply :: replies, s)

end Session

def Report.ofSteps (steps : List Step) : Report :=
  let (replies, s) := Session.start.advanceAll steps
  let start := s.store.destroyed.size
  ⟨replies, s.close.labelsSince start⟩

end CountedObjects
