import CallbackLint.Finding
import CallbackLint.Text.Integer
/-!
# Records from outside

Issues, locations and findings can be given as records of loose fields. Text has to be
text. An integer may also be a truth value, a number without a fraction, or text that
spells one. A path is text, and is read as a path. An absent field takes its default where
it has one; fields that no record knows are ignored.
-/

namespace CallbackLint

/-- A value of a loose record. -/
inductive Loose where
  | null
  | truth (b : Bool)
  | integer (n : Int)
  /-- The number `mantissa / 10 ^ places`. -/
  | decimal (mantissa : Int) (places : Nat)
  | text (s : String)
  | list
  | record (fields : List (String × Loose))
deriving Inhabited

/-- The fields of a loose record. -/
abbrev Fields := List (String × Loose)

namespace Loose

/-- The text that a value is. -/
def asText : Loose → Except Fault String
  | .text s => .ok s
  | _ => .error .notText

/-- The integer that a value is or spells. -/
def asInteger : Loose → Except Fault Int
  | .truth b => .ok (if b then 1 else 0)
  | .integer n => .ok n
  | .decimal m p => if m % (Nat.pow 10 p) == 0 then .ok (m / (Nat.pow 10 p)) else .error .fraction
  | .text s =>
    match Text.integer? s with
    | some n => .ok n
    | none => .error .unreadableInteger
  | .null => .error .notInteger
  | .list => .error .notInteger
  | .record _ => .error .notInteger

/-- The integer that a value is or spells, which has to be at least one. -/
def asPositive (v : Loose) : Except Fault Int :=
  match v.asInteger with
  | .ok n => if n < 1 then .error .tooSmall else .ok n
  | .error e => .error e

/-- The priority that a value is or spells: an integer from one to ten. -/
def asPriority (v : Loose) : Except Fault Int :=
  match v.asPositive with
  | .ok n => if 10 < n then .error .tooLarge else .ok n
  | .error e => .error e

/-- The path that a value spells. -/
def asPath : Loose → Except Fault Path
  | .text s => .ok (Path.ofString s)
  | _ => .error .notPath

/-- The value under a reading that also takes null. -/
def orNull {α : Type} (read : Loose → Except Fault α) : Loose → Except Fault (Option α)
  | .null => .ok none
  | v =>
    match read v with
    | .ok a => .ok (some a)
    | .error e => .error e

end Loose

namespace Fields

variable {α : Type}

/-- A field under a reading, with the fault placed at the field. -/
def readValue (field : String) (read : Loose → Except Fault α) (v : Loose) : Checked α :=
  match read v with
  | .ok a => .ok a
  | .error e => Checked.refuse field e

/-- A field that has to be there. -/
def required (fs : Fields) (field : String) (read : Loose → Except Fault α) : Checked α :=
  match fs.lookup field with
  | some v => readValue field read v
  | none => Checked.refuse field .missing

/-- A field that takes a default when it is absent. -/
def optional (fs : Fields) (field : String) (default : α) (read : Loose → Except Fault α) :
    Checked α :=
  match fs.lookup field with
  | some v => readValue field read v
  | none => .ok default

end Fields

/-- The issue that a record describes. -/
def Issue.ofFields (fs : Fields) : Checked Issue :=
  ((((((Checked.ok Issue.mk).and
    (fs.required "id" Loose.asText)).and
    (fs.required "brief" Loose.asText)).and
    (fs.required "explanation" Loose.asText)).and
    (fs.optional "category" "correctness" Loose.asText)).and
    (fs.optional "priority" 5 Loose.asPriority)).and
    (fs.optional "severity" "error" Loose.asText)

/-- The location that a record describes. -/
def Location.ofFields (fs : Fields) : Checked Location :=
  ((((((Checked.ok Location.mk).and
    (fs.required "path" Loose.asPath)).and
    (fs.required "line" Loose.asPositive)).and
    (fs.required "column" Loose.asPositive)).and
    (fs.optional "end_line" none (Loose.orNull Loose.asPositive))).and
    (fs.optional "end_column" none (Loose.orNull Loose.asPositive))).and
    (fs.optional "snippet" none (Loose.orNull Loose.asText))

/-- The location under a field of a record. -/
def Location.ofField (fs : Fields) (field : String) : Checked Location :=
  match fs.lookup field with
  | some (.record inner) => Checked.within field (Location.ofFields inner)
  | some _ => Checked.refuse field .notRecord
  | none => Checked.refuse field .missing

/-- A finding from its record and its location, already read or refused. -/
def Finding.ofFieldsAt (fs : Fields) (location : Checked Location) : Checked Finding :=
  ((((Checked.ok Finding.mk).and
    (fs.required "rule_id" Loose.asText)).and
    (fs.required "message" Loose.asText)).and
    location).and
    (fs.optional "severity" "warning" Loose.asText)

/-- The finding that a record describes, its location included. -/
def Finding.ofFields (fs : Fields) : Checked Finding :=
  Finding.ofFieldsAt fs (Location.ofField fs "location")

/-- The finding that a record describes when its location is read first and on its own, so
that faults of the location are named as such and hide those of the finding. -/
def Finding.ofFieldsLocated (fs : Fields) : Checked Finding :=
  match fs.lookup "location" with
  | some (.record inner) =>
    match Location.ofFields inner with
    | .ok location => Finding.ofFieldsAt fs (.ok location)
    | .error es => .error es
  | _ => Finding.ofFields fs

end CallbackLint
