import Mathlib.Data.Set.Insert
import Mathlib.Logic.Function.Basic

/-! A relay of messages to members who cannot be called: a member leaves a request open on
a line, and what is posted to the member goes out as the answer to that request, or waits
for the next one. -/
namespace Relay

/-- A member's name, the line of the request left open, and the messages not sent yet. -/
structure Seat (Line Name Message : Type) where
  name : Name
  held : Option Line := none
  waiting : List Message := []

structure State (Line Member Name Message : Type) where
  open' : Set Line
  inHand : Option (Line × Option Member)
  seats : Member → Option (Seat Line Name Message)

inductive Event (Line Member Name Message : Type) where
  | opened (line : Line)
  | closed (line : Line)
  | asked (line : Line) (name : Option Name)
  | answered (line : Line)
  | kept (member : Member) (line : Line)
  | dismissed (member : Member) (line : Line)
  | delivered (member : Member) (line : Line) (messages : List Message)
  | joined (member : Member) (name : Name)
  | posted (member : Member) (message : Message)
  | left (member : Member)
  deriving DecidableEq

section Rules
variable {Line Member Name Message : Type} [DecidableEq Line] [DecidableEq Member]

def Seat.without (line : Line) (seat : Seat Line Name Message) : Seat Line Name Message :=
  { seat with held := if seat.held = some line then none else seat.held }

namespace State

def empty : State Line Member Name Message := ⟨∅, none, fun _ => none⟩

def put (member : Member) (seat : Option (Seat Line Name Message))
    (r : State Line Member Name Message) : State Line Member Name Message :=
  { r with seats := Function.update r.seats member seat }

def Free (r : State Line Member Name Message) (line : Line) : Prop :=
  ∀ member seat, r.seats member = some seat → seat.held ≠ some line

end State

inductive Step (r : State Line Member Name Message) :
    Event Line Member Name Message → State Line Member Name Message → Prop where
  | opened {line : Line} : line ∉ r.open' → r.Free line →
      Step r (.opened line) { r with open' := insert line r.open' }
  /-- The request that was open on the line is lost, and its member knows. -/
  | closed {line : Line} : line ∈ r.open' → r.inHand = none →
      Step r (.closed line) { r with
        open' := r.open' \ {line}
        seats := fun member => (r.seats member).map (Seat.without line) }
  /-- The name tells whose request it is. Nobody else has one open on the line. -/
  | asked {line : Line} {name : Option Name} {asker : Option Member} :
      line ∈ r.open' → r.inHand = none →
      (∀ member, asker = some member ↔
        ∃ seat, r.seats member = some seat ∧ name = some seat.name) →
      (∀ member seat, r.seats member = some seat → seat.held = some line →
        asker = some member) →
      Step r (.asked line name) { r with inHand := some (line, asker) }
  /-- A stranger's request is answered at once. -/
  | answered {line : Line} : line ∈ r.open' → r.inHand = some (line, none) → r.Free line →
      Step r (.answered line) { r with inHand := none }
  /-- A member's request is left open. -/
  | kept {member : Member} {line : Line} {seat : Seat Line Name Message} : line ∈ r.open' →
      r.inHand = some (line, some member) → r.seats member = some seat → seat.held = none →
      r.Free line → Step r (.kept member line)
        { r.put member (some { seat with held := some line }) with inHand := none }
  | dismissed {member : Member} {line : Line} {seat : Seat Line Name Message} :
      line ∈ r.open' → r.seats member = some seat → seat.held = some line →
      Step r (.dismissed member line) (r.put member (some { seat with held := none }))
  /-- All that waits goes out at once. -/
  | delivered {member : Member} {line : Line} {seat : Seat Line Name Message} :
      line ∈ r.open' → r.seats member = some seat → seat.held = some line →
      seat.waiting ≠ [] → Step r (.delivered member line seat.waiting)
        (r.put member (some { seat with held := none, waiting := [] }))
  | joined {member : Member} {name : Name} : r.seats member = none →
      (∀ other seat, r.seats other = some seat → seat.name ≠ name) →
      Step r (.joined member name) (r.put member (some { name }))
  | posted {member : Member} {message : Message} {seat : Seat Line Name Message} :
      r.seats member = some seat → Step r (.posted member message)
        (r.put member (some { seat with waiting := seat.waiting ++ [message] }))
  /-- A member with a request open, or in hand, does not leave. -/
  | left {member : Member} {seat : Seat Line Name Message} : r.seats member = some seat →
      seat.held = none → (∀ line, r.inHand ≠ some (line, some member)) →
      Step r (.left member) (r.put member none)

/-- What the events make of an empty relay, the newest event first. -/
inductive Runs : List (Event Line Member Name Message) →
    State Line Member Name Message → Prop where
  | empty : Runs [] State.empty
  | step {events : List (Event Line Member Name Message)} {event}
      {r r' : State Line Member Name Message} :
      Runs events r → Step r event r' → Runs (event :: events) r'

end Rules

end Relay
