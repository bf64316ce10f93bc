import Galley.Json.Value

/-! # Records in JSON

A record is written as an object with a member for each field, in any order and with other members
between them, or as an array of the fields in their order. A field that is written twice is a
fault as soon as its second key is read. Whether fields may be missing is decided at the end of the
record.
-/

namespace Galley.Json

/-- A field of a record that is read into a draft of type `σ`. -/
structure Field (σ : Type) where
  /-- The key of the field in an object. -/
  key : String
  /-- Whether a draft has the field already. -/
  isSet : σ → Bool
  /-- Read the value of the field into a draft. -/
  read : σ → Reader σ

/-- Read the elements of an array as fields in order, up to the end of the array. The array may end
before it has all fields, but may not go on after them. -/
def readElements {σ : Type} (first : Bool) : List (Field σ) → (draft : σ) → Reader σ
  | [], draft, text => do
      let ⟨_, rest, shorter⟩ ← expectMark ']' text
      .ok ⟨draft, rest, shorter⟩
  | field :: fields, draft, text => do
      let ⟨char, rest, restShorter⟩ ← nextCharacter text
      if char = ']' then .ok ⟨draft, rest, restShorter⟩
      else if first then
        let ⟨next, after, afterShorter⟩ ← field.read draft text
        let ⟨last, final, finalShorter⟩ ← readElements false fields next after
        .ok ⟨last, final, shorter_trans finalShorter afterShorter⟩
      else if char ≠ ',' then .error .malformed
      else
        let ⟨start, _, _⟩ ← nextCharacter rest
        if start = ']' then .error .malformed
        else
          let ⟨next, after, valueShorter⟩ ← field.read draft rest
          have afterShorter := shorter_trans valueShorter restShorter
          let ⟨last, final, finalShorter⟩ ← readElements false fields next after
          .ok ⟨last, final, shorter_trans finalShorter afterShorter⟩

/-- Read the value of a member after its key: into the draft if the key is that of a field. -/
def readMember {σ : Type} (fields : List (Field σ)) (draft : σ) (key : List Char) : Reader σ :=
  fun text =>
    match fields.find? fun field => field.key.toList = key with
    | none => do
        let ⟨_, value, colonShorter⟩ ← expectMark ':' text
        let ⟨_, rest, shorter⟩ ← skipValue value
        .ok ⟨draft, rest, shorter_trans shorter colonShorter⟩
    | some field =>
        if field.isSet draft then .error .mistyped
        else do
          let ⟨_, value, colonShorter⟩ ← expectMark ':' text
          let ⟨next, rest, shorter⟩ ← field.read draft value
          .ok ⟨next, rest, shorter_trans shorter colonShorter⟩

/-- Read a member: its key and its value. -/
def readKeyedMember {σ : Type} (fields : List (Field σ)) (draft : σ) : Reader σ := fun text => do
  let ⟨key, afterKey, keyShorter⟩ ← readKey true text
  let ⟨next, rest, shorter⟩ ← readMember fields draft key afterKey
  .ok ⟨next, rest, shorter_trans shorter keyShorter⟩

/-- Read the members of an object after one of its members, up to its end. -/
def readMoreMembers {σ : Type} (fields : List (Field σ)) (draft : σ) : Reader σ := fun text => do
  let ⟨char, rest, restShorter⟩ ← nextCharacter text
  if char = '\x7d' then .ok ⟨draft, rest, restShorter⟩
  else if char ≠ ',' then .error .malformed
  else
    let ⟨next, after, memberShorter⟩ ← readKeyedMember fields draft rest
    have afterShorter := shorter_trans memberShorter restShorter
    let ⟨last, final, finalShorter⟩ ← readMoreMembers fields next after
    .ok ⟨last, final, shorter_trans finalShorter afterShorter⟩
termination_by text => text.length
decreasing_by assumption

/-- Read the members of an object after the brace that opens it, up to its end. -/
def readMembers {σ : Type} (fields : List (Field σ)) (draft : σ) : Reader σ := fun text => do
  let ⟨char, rest, restShorter⟩ ← nextCharacter text
  if char = '\x7d' then .ok ⟨draft, rest, restShorter⟩
  else
    let ⟨next, after, afterShorter⟩ ← readKeyedMember fields draft text
    let ⟨last, final, finalShorter⟩ ← readMoreMembers fields next after
    .ok ⟨last, final, shorter_trans finalShorter afterShorter⟩

/-- Read a record into a draft. -/
def readRecord {σ : Type} (fields : List (Field σ)) (draft : σ) : Reader σ :=
  afterSpace fun
    | [] => .error .cutShort
    | char :: rest =>
        if char = '\x7b' then do
          let ⟨read, after, shorter⟩ ← readMembers fields draft rest
          .ok ⟨read, after, shorter_cons char shorter⟩
        else if char = '[' then do
          let ⟨read, after, shorter⟩ ← readElements true fields draft rest
          .ok ⟨read, after, shorter_cons char shorter⟩
        else .error (mismatch (char :: rest))

/-- Read a record and complete its draft, which fails if a field is missing. -/
def readComplete {σ α : Type} (fields : List (Field σ)) (draft : σ) (complete : σ → Option α) :
    Reader α := fun text => do
  let parsed ← readRecord fields draft text
  match complete parsed.value with
  | none => .error .mistyped
  | some value => .ok (parsed.map fun _ => value)

/-- Read a text that holds one value and nothing else but space. -/
def readWhole {α : Type} (reader : Reader α) (text : List Char) : Except Fault α := do
  let parsed ← reader text
  if (skipSpace parsed.rest).val = [] then .ok parsed.value else .error .malformed

end Galley.Json
