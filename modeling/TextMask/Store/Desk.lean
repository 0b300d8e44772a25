import TextMask.Store.Basic

/-!
# A desk with two stores

`Desk` joins a store of its own with the shared store, which is made from the standard policy when
it is first used and again after every reset. `Desk.serve` answers one request.
-/

namespace TextMask

/-- The store that a request is meant for. -/
inductive StoreChoice where
  | own
  | shared
  deriving DecidableEq, Repr

/-- A text with the caret that it is to be formatted with; no caret means the end of the text. -/
structure Input where
  text : Text
  caret : Option Int
  autocomplete : Bool
  deriving DecidableEq, Repr

/-- What can be asked of a desk. -/
inductive Request where
  | get (format : Text)
  | contains (format : Text)
  | clear
  /-- Drops the shared store, whichever store the request is meant for. -/
  | reset
  | apply (format : Text) (input : Input)
  | pick (primary : Text) (affine : List Text) (input : Input)
  deriving DecidableEq, Repr

/-- Why a desk cannot answer a request. -/
inductive DeskError where
  | caret (error : CaretError)
  | format (error : FormatError)
  | run (error : RunError)
  deriving DecidableEq, Repr

/-- The answer to a request. -/
inductive Reply where
  | mask (stored : StoredMask)
  | contained (yes : Bool)
  | done
  | applied (picked : Picked)
  | picked (picked : Picked)
  | failed (error : DeskError)
  deriving DecidableEq, Repr

/-- The mask that a reply hands out. -/
def Reply.handedOut? : Reply → Option StoredMask
  | .mask stored => some stored
  | .applied p | .picked p => some p.stored
  | .contained _ | .done | .failed _ => none

/-- Two stores and the next free serial number. -/
structure Desk where
  own : Store
  shared : Option Store
  next : Serial
  deriving DecidableEq, Repr

/-- A reply with the number of masks in the store that served it and the events it logged. -/
structure Service where
  reply : Reply
  size : Nat
  log : List LogEvent
  deriving DecidableEq, Repr

/-- A failure of a store as a failure of the desk. -/
def DeskError.ofStoreError : StoreError → DeskError
  | .format e => .format e
  | .run e => .run e

namespace Desk

/-- A desk whose own store scores with the weights of a policy. -/
def start (policy : Policy) : Desk := ⟨.empty policy.weights, none, 0⟩

/-- The store that a request is meant for. -/
def store (d : Desk) : StoreChoice → Store
  | .own => d.own
  | .shared => d.shared.getD (.empty Policy.standard.weights)

/-- The desk with another store in place of the chosen one. -/
def withStore (d : Desk) (choice : StoreChoice) (s : Store) : Desk :=
  match choice with
  | .own => { d with own := s }
  | .shared => { d with shared := some s }

/-- What a store answered, as the desk passes it on. -/
def passOn {ε α : Type} (d : Desk) (choice : StoreChoice) (served : Served (Except ε α))
    (reply : α → Reply) (error : ε → DeskError) : Service × Desk :=
  let answer := match served.answer with
    | .ok a => reply a
    | .error e => .failed (error e)
  (⟨answer, served.store.size, served.log⟩,
    { d.withStore choice served.store with next := served.next })

/-- Serves a request that needs a text with a caret, once the caret has been checked. -/
def withInput (d : Desk) (choice : StoreChoice) (input : Input)
    (serve : CaretText → Service × Desk) : Service × Desk :=
  match CaretText.placeOrEnd input.text input.caret with
  | .ok t => serve t
  | .error e => (⟨.failed (.caret e), (d.store choice).size, []⟩, d)

/-- Answers a request. -/
def serve (d : Desk) (choice : StoreChoice) : Request → Service × Desk
  | .get format =>
    d.passOn choice ((d.store choice).get d.next format) .mask .format
  | .contains format =>
    let s := d.store choice
    (⟨.contained (s.contains format), s.size, []⟩, d)
  | .clear =>
    let s := (d.store choice).clear
    (⟨.done, s.size, []⟩, d.withStore choice s)
  | .reset =>
    let d := { d with shared := none }
    (⟨.done, (d.store choice).size, []⟩, d)
  | .apply format input =>
    d.withInput choice input fun t =>
      d.passOn choice ((d.store choice).format d.next format t input.autocomplete)
        .applied .ofStoreError
  | .pick primary affine input =>
    d.withInput choice input fun t =>
      d.passOn choice ((d.store choice).pick d.next t input.autocomplete primary affine)
        .picked .ofStoreError

/-- Answers requests one after the other, and tells the desk that is left. -/
def run (d : Desk) : List (StoreChoice × Request) → List Service × Desk
  | [] => ([], d)
  | (choice, request) :: rest =>
    let (service, d) := d.serve choice request
    let (services, d) := d.run rest
    (service :: services, d)

end Desk

end TextMask
