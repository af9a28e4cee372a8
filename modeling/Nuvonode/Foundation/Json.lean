/-
  Foundation/Json.lean --- how Go's `encoding/json` writes and reads tagged structs.

  A value on the wire is a tree whose numbers are literals.  A `Writer` stands for a
  Go type where it is encoded and a `Reader` for one where it is decoded; both are
  built from the tags of a struct, so that the two ends of a wire can be declared
  apart and then compared.  A reader starts from the value that is there before: a
  missing member, or a `null` for a number or a text, leaves it as it is.
-/
import Mathlib.Data.List.Sort
import Nuvonode.Foundation.Scanning

set_option autoImplicit false

namespace Nuvonode.Foundation

inductive Json where
  | null
  | bool (b : Bool)
  | number (literal : List Char)
  | string (text : String)
  | array (elements : List Json)
  | object (members : List (String × Json))

/-- A type of the standard library with a text form that is read back, and its zero value. -/
structure TextForm (α : Type) where
  format : α → List Char
  parse : List Char → Option α
  parse_format : ∀ a, parse (format a) = some a
  zero : α

/-- A Go type where it is encoded. -/
structure Writer (α : Type) where
  encode : α → Json
  /-- What `omitempty` leaves out. -/
  isEmpty : α → Bool

/-- A Go type where it is decoded. -/
structure Reader (α : Type) where
  zero : α
  /-- `none` is an error; the second argument is the value before. -/
  decode : Json → α → Option α

/-- `json.Unmarshal` of a `json.RawMessage` into a new variable; a message without bytes is an
error. -/
def Reader.unmarshal {α : Type} (reader : Reader α) : Option Json → Option α
  | none => none
  | some json => reader.decode json reader.zero

/-! ## Types without tags -/

section Scalars

def Writer.text : Writer String where
  encode := .string
  isEmpty := fun text => text = ""

def Reader.text : Reader String where
  zero := ""
  decode
    | .string text, _ => some text
    | .null, old => some old
    | _, _ => none

def Writer.int : Writer Int64 where
  encode := fun n => .number (formatInt n.toInt)
  isEmpty := fun n => n = 0

def Reader.int : Reader Int64 where
  zero := 0
  decode
    | .number literal, _ => parseInt literal
    | .null, old => some old
    | _, _ => none

variable {α : Type} (form : TextForm α)

/-- A number other than an integer. -/
def Writer.float : Writer α where
  encode := fun a => .number (form.format a)
  isEmpty := fun _ => false

def Reader.float : Reader α where
  zero := form.zero
  decode
    | .number literal, _ => form.parse literal
    | .null, old => some old
    | _, _ => none

/-- A `time.Time`: a struct for `omitempty`, and a text on the wire. -/
def Writer.time : Writer α where
  encode := fun a => .string (String.ofList (form.format a))
  isEmpty := fun _ => false

def Reader.time : Reader α where
  zero := form.zero
  decode
    | .string text, _ => form.parse text.toList
    | .null, old => some old
    | _, _ => none

/-- A `json.RawMessage`; `none` is one without bytes. -/
def Reader.raw : Reader (Option Json) where
  zero := none
  decode := fun json _ => some (some json)

end Scalars

section Containers

variable {α : Type}

def Writer.pointer (writer : Writer α) : Writer (Option α) where
  encode
    | none => .null
    | some a => writer.encode a
  isEmpty := Option.isNone

def Reader.pointer (reader : Reader α) : Reader (Option α) where
  zero := none
  decode
    | .null, _ => some none
    | json, old => (reader.decode json (old.getD reader.zero)).map some

/-- A slice that is not nil. -/
def Writer.slice (writer : Writer α) : Writer (List α) where
  encode := fun elements => .array (elements.map writer.encode)
  isEmpty := List.isEmpty

/-- Elements are decoded over those that are there, and then over the zero value. -/
def Reader.elements (reader : Reader α) : List Json → List α → Option (List α)
  | [], _ => some []
  | json :: elements, old =>
      (reader.decode json (old.headD reader.zero)).bind fun a =>
        (reader.elements elements old.tail).map (a :: ·)

def Reader.slice (reader : Reader α) : Reader (List α) where
  zero := []
  decode
    | .array elements, old => reader.elements elements old
    | .null, _ => some []
    | _, _ => none

/-- A map with texts for keys, which is written in the order of its keys. -/
def Writer.map (writer : Writer α) : Writer (List (String × α)) where
  encode := fun entries =>
    .object ((entries.insertionSort fun a b => a.1 ≤ b.1).map fun entry =>
      (entry.1, writer.encode entry.2))
  isEmpty := List.isEmpty

end Containers

/-! ## Structs -/

/-- A tagged field where its struct is encoded; `none` is a field that is left out. -/
structure WriteField (σ : Type) where
  name : String
  value : σ → Option Json

/-- A tagged field where its struct is decoded. -/
structure ReadField (τ : Type) where
  name : String
  read : Json → τ → Option τ

section Structs

variable {α σ τ : Type}

/-- The tag `json:"name"`. -/
def WriteField.tag (writer : Writer α) (name : String) (get : σ → α) : WriteField σ where
  name := name
  value := fun s => some (writer.encode (get s))

/-- The tag `json:"name,omitempty"`. -/
def WriteField.omitEmpty (writer : Writer α) (name : String) (get : σ → α) : WriteField σ where
  name := name
  value := fun s => if writer.isEmpty (get s) then none else some (writer.encode (get s))

def ReadField.tag (reader : Reader α) (name : String) (get : τ → α) (set : τ → α → τ) :
    ReadField τ where
  name := name
  read := fun json t => (reader.decode json (get t)).map (set t)

/-- A character as names are compared: letters in upper case, with the long s and the sign of the
kelvin. -/
def foldRune (c : Char) : Char :=
  if c = '\u017f' then 'S' else if c = '\u212a' then 'K' else c.toUpper

def foldName (name : String) : String := String.ofList (name.toList.map foldRune)

/-- The field that a key names: exactly, or else but for the case of its letters. -/
def findField (fields : List (ReadField τ)) (key : String) : Option (ReadField τ) :=
  match fields.find? fun field => field.name = key with
  | some field => some field
  | none => fields.find? fun field => foldName field.name = foldName key

/-- A member of an object; one that names no field is ignored. -/
def readMember (fields : List (ReadField τ)) (t : τ) (key : String) (json : Json) : Option τ :=
  match findField fields key with
  | some field => field.read json t
  | none => some t

def readMembers (fields : List (ReadField τ)) : List (String × Json) → τ → Option τ
  | [], t => some t
  | (key, json) :: members, t =>
      (readMember fields t key json).bind (readMembers fields members)

/-- The members that the fields of a struct are written as. -/
def writeMembers : List (WriteField σ) → σ → List (String × Json)
  | [], _ => []
  | field :: fields, s =>
      match field.value s with
      | some json => (field.name, json) :: writeMembers fields s
      | none => writeMembers fields s

def Writer.struct (fields : List (WriteField σ)) : Writer σ where
  encode := fun s => .object (writeMembers fields s)
  isEmpty := fun _ => false

def Reader.struct (zero : τ) (fields : List (ReadField τ)) : Reader τ where
  zero := zero
  decode
    | .object members, t => readMembers fields members t
    | .null, t => some t
    | _, _ => none

end Structs

/-! ## What is written is read -/

section Laws

variable {α β σ τ : Type}

@[simp] theorem Reader.text_decode (text old : String) :
    Reader.text.decode (Writer.text.encode text) old = some text := rfl

@[simp] theorem Reader.int_decode (n old : Int64) :
    Reader.int.decode (Writer.int.encode n) old = some n := parseInt_formatInt n

@[simp] theorem Reader.float_decode (form : TextForm α) (a old : α) :
    (Reader.float form).decode ((Writer.float form).encode a) old = some a := form.parse_format a

@[simp] theorem Reader.time_decode (form : TextForm α) (a old : α) :
    (Reader.time form).decode ((Writer.time form).encode a) old = some a := by
  change form.parse (String.ofList (form.format a)).toList = some a
  rw [String.toList_ofList]
  exact form.parse_format a

/-- A reader recovers what a writer wrote, up to a map, whatever was there before. -/
def Recovers (writer : Writer α) (reader : Reader β) (f : α → β) : Prop :=
  ∀ a old, writer.encode a ≠ .null ∧ reader.decode (writer.encode a) old = some (f a)

theorem recovers_text : Recovers Writer.text Reader.text id :=
  fun _ _ => ⟨Json.noConfusion, rfl⟩

theorem recovers_int : Recovers Writer.int Reader.int id :=
  fun n old => ⟨Json.noConfusion, Reader.int_decode n old⟩

theorem recovers_float (form : TextForm α) :
    Recovers (Writer.float form) (Reader.float form) id :=
  fun a old => ⟨Json.noConfusion, Reader.float_decode form a old⟩

theorem Recovers.pointer {writer : Writer α} {reader : Reader β} {f : α → β}
    (h : Recovers writer reader f) (a : Option α) (old : Option β) :
    reader.pointer.decode (writer.pointer.encode a) old = some (a.map f) := by
  cases a with
  | none => rfl
  | some a =>
      obtain ⟨hnull, hdecode⟩ := h a (old.getD reader.zero)
      have hread : reader.pointer.decode (writer.encode a) old =
          (reader.decode (writer.encode a) (old.getD reader.zero)).map some := by
        cases hjson : writer.encode a with
        | null => exact absurd hjson hnull
        | bool b => rfl
        | number literal => rfl
        | string text => rfl
        | array elements => rfl
        | object members => rfl
      exact hread.trans (congrArg (Option.map some) hdecode)

/-- The elements of a new slice are read from the zero value. -/
theorem Reader.slice_decode {writer : Writer α} {reader : Reader β} {f : α → β}
    (h : ∀ a, reader.decode (writer.encode a) reader.zero = some (f a)) (elements : List α) :
    reader.slice.decode (writer.slice.encode elements) [] = some (elements.map f) := by
  change reader.elements (elements.map writer.encode) [] = _
  induction elements with
  | nil => rfl
  | cons a elements ih =>
      rw [List.map_cons, Reader.elements, List.headD_nil, h, Option.bind_some, List.tail_nil, ih]
      rfl

theorem Reader.struct_decode (fields : List (WriteField σ)) (zero t : τ)
    (fields' : List (ReadField τ)) (s : σ) :
    (Reader.struct zero fields').decode ((Writer.struct fields).encode s) t =
      readMembers fields' (writeMembers fields s) t := rfl

theorem WriteField.tag_value (writer : Writer α) (name : String) (get : σ → α) (s : σ) :
    (WriteField.tag writer name get).value s = some (writer.encode (get s)) := rfl

theorem writeMembers_some {field : WriteField σ} {fields : List (WriteField σ)} {s : σ}
    {json : Json}
    (h : field.value s = some json) :
    writeMembers (field :: fields) s = (field.name, json) :: writeMembers fields s := by
  rw [writeMembers, h]

theorem writeMembers_none {field : WriteField σ} {fields : List (WriteField σ)} {s : σ}
    (h : field.value s = none) : writeMembers (field :: fields) s = writeMembers fields s := by
  rw [writeMembers, h]

section Fields

variable {fields : List (WriteField σ)} {fields' : List (ReadField τ)} {writer : Writer α}
  {reader : Reader β} {name name' : String} {get : σ → α} {get' : τ → β} {set : τ → β → τ} {s : σ}
  {t : τ} {b : β}

/-- A member that names a field is read into it. -/
theorem readMembers_cons {json : Json} {members : List (String × Json)}
    (hfield : findField fields' name = some (.tag reader name' get' set))
    (hread : reader.decode json (get' t) = some b) :
    readMembers fields' ((name, json) :: members) t = readMembers fields' members (set t b) := by
  have hmember : readMember fields' t name json = some (set t b) := by
    rw [readMember, hfield]
    exact congrArg (Option.map (set t)) hread
  rw [readMembers, hmember]
  rfl

/-- A tagged field reaches the field of its name. -/
theorem readMembers_tag (hfield : findField fields' name = some (.tag reader name' get' set))
    (hread : reader.decode (writer.encode (get s)) (get' t) = some b) :
    readMembers fields' (writeMembers (.tag writer name get :: fields) s) t =
      readMembers fields' (writeMembers fields s) (set t b) := by
  rw [writeMembers_some (WriteField.tag_value writer name get s)]
  exact readMembers_cons hfield hread

/-- So does one with `omitempty`, when what is left out reads as what is there. -/
theorem readMembers_omitEmpty
    (hfield : findField fields' name = some (.tag reader name' get' set))
    (hread : reader.decode (writer.encode (get s)) (get' t) = some b)
    (hempty : writer.isEmpty (get s) = true → set t b = t) :
    readMembers fields' (writeMembers (.omitEmpty writer name get :: fields) s) t =
      readMembers fields' (writeMembers fields s) (set t b) := by
  by_cases h : writer.isEmpty (get s) = true
  · rw [writeMembers_none (if_pos h), hempty h]
  · rw [writeMembers_some (if_neg h)]
    exact readMembers_cons hfield hread

end Fields

end Laws

end Nuvonode.Foundation
