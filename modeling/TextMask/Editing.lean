import TextMask.Mask.Basic

/-!
# Live editing

An editing session keeps a text and a caret, which a mask reformats after every edit. `Edit` is one
edit; `Session.edit` carries it out. An edit that fails leaves the text as far as it was edited and
moves the caret to the nearest place inside it.
-/

namespace TextMask

/-- One edit: each part is carried out if it is given, in the order of the fields. -/
structure Edit where
  format : Option Text := none
  autocomplete : Option Bool := none
  replace : Option Text := none
  caret : Option Int := none
  insert : Option Text := none
  backspace : Option Int := none
  deriving DecidableEq, Repr

/-- A text that is being edited through a mask. The caret is checked only when the mask is
applied. -/
structure Session where
  mask : Mask
  autocomplete : Bool
  text : Text
  caret : Int
  deriving DecidableEq, Repr

/-- Why an edit fails. -/
inductive EditError where
  | format (error : FormatError)
  | caret (error : CaretError)
  | run (error : RunError)
  deriving DecidableEq, Repr

namespace Text

/-- The number of characters before a place. A negative place counts from the end, and a place
outside the text is moved to its nearer end. -/
def countBefore (t : Text) (place : Int) : Nat :=
  if place < 0 then (t.length + place).toNat else min place.toNat t.length

/-- The text before a place. -/
def before (t : Text) (place : Int) : Text := t.take (t.countBefore place)

/-- The text behind a place. -/
def behind (t : Text) (place : Int) : Text := t.drop (t.countBefore place)

theorem before_append_behind (t : Text) (place : Int) : t.before place ++ t.behind place = t :=
  List.take_append_drop _ _

end Text

namespace Session

/-- An empty text under a mask. -/
def start (mask : Mask) (autocomplete : Bool) : Session := ⟨mask, autocomplete, [], 0⟩

/-- The session under a new format, which keeps the weights. -/
def withFormat (s : Session) (format : Text) : Except FormatError Session :=
  (Mask.compile format s.mask.weights).map fun mask => { s with mask }

/-- The session after the part of an edit that changes its text, its caret and its setting. -/
def prepare (s : Session) (e : Edit) : Session :=
  let s := match e.autocomplete with
    | none => s
    | some autocomplete => { s with autocomplete }
  let s := match e.replace with
    | none => s
    | some text => { s with text, caret := text.length }
  let s := match e.caret with
    | none => s
    | some caret => { s with caret }
  let s := match e.insert with
    | none => s
    | some text =>
      { s with
        text := s.text.before s.caret ++ text ++ s.text.behind s.caret
        caret := s.caret + text.length }
  match e.backspace with
  | none => s
  | some count =>
    let removed := min count s.caret
    { s with
      text := s.text.before (s.caret - removed) ++ s.text.behind s.caret
      caret := s.caret - removed }

/-- The session with its caret moved inside the text. -/
def clamp (s : Session) : Session :=
  { s with caret := max 0 (min s.caret s.text.length) }

/-- Applies the mask; the formatted text takes the place of the text. -/
def reformat (s : Session) : Except EditError (Result × Session) := do
  let t ← (CaretText.place s.text s.caret).mapError .caret
  let r ← (s.mask.apply t s.autocomplete).mapError .run
  return (r, { s with text := r.formatted.chars, caret := r.formatted.caret })

/-- Carries out an edit. The session goes on after an error, too. -/
def edit (s : Session) (e : Edit) : Except EditError Result × Session :=
  let changed : Except FormatError Session := match e.format with
    | none => .ok s
    | some format => s.withFormat format
  match changed with
  | .error error => (.error (.format error), s.clamp)
  | .ok s =>
    let s := s.prepare e
    match s.reformat with
    | .error error => (.error error, s.clamp)
    | .ok (r, s) => (.ok r, s)

/-- Carries out edits one after the other. -/
def editAll (s : Session) : List Edit → List (Except EditError Result)
  | [] => []
  | e :: rest =>
    let (answer, s) := s.edit e
    answer :: s.editAll rest

end Session

end TextMask
