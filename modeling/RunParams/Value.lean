import RunParams.Decimal.Layout
import RunParams.Decimal.Numeral
import RunParams.Fault
import RunParams.Text.Literal

/-!
# Values

The values that parameters have, their types, and the passage between values and text. A value has a text, which is what the
registry keeps, and a type reads values back from text. The types are those of the language and the classes that a program
declares, which read and show their objects as they like.
-/

namespace RunParams

open Decimal

/-! ### Types -/

/-- A type of the language. A list is made of the characters of its text; no text is read as bytes. -/
inductive BasicType
  | noneType
  | bool
  | int
  | float
  | text
  | complex
  | fraction
  | list
  | bytes
  deriving DecidableEq, Repr

/-- Why a type does not take a text or a number: it does not fit, which value errors, type errors and arithmetic errors say, or
another error is raised. -/
inductive Rejection
  | unfit
  | fault (error : Fault)
  deriving DecidableEq

/-- The text that an object is shown as, unless showing it fails. -/
abbrev Shown := Except Fault String

/-- What the objects of a class are made of: a text that is not looked at, a whole number, a floating-point number, or a text. -/
inductive Maker
  | string
  | integer (make : Int → Except Rejection Shown)
  | scalar (make : Float → Except Rejection Shown)
  | value (make : String → Except Rejection Shown)

/-- A class that a program declares. Two of them may have the same name, which may be that of another type, too. -/
structure Class where
  name : String
  maker : Maker

/-- The type of a parameter. -/
inductive ValueType
  | basic (t : BasicType)
  | declared (c : Class)

namespace ValueType

/-- The type of truth values. -/
abbrev bool : ValueType := basic .bool

/-- The type of whole numbers. -/
abbrev int : ValueType := basic .int

/-- The type of texts. -/
abbrev text : ValueType := basic .text

end ValueType

/-- A value of a parameter. -/
inductive Value
  | nothing
  | bool (b : Bool)
  | int (n : Int)
  | float (x : Float)
  | text (s : String)
  | complex (re im : Float)
  | fraction (q : Rat)
  | ints (ns : List Int)
  | chars (cs : List Char)
  | object (c : Class) (shown : Shown)

/-- What a type looks like to a user who sets a parameter. -/
inductive Kind
  | string
  | scalar
  | integer
  | boolean
  | value
  | flag
  deriving DecidableEq, Repr

/-- The kind of a class. -/
def Maker.kind : Maker → Kind
  | string => .string
  | integer _ => .integer
  | scalar _ => .scalar
  | value _ => .value

/-- The name of a type of the language. -/
def BasicType.name : BasicType → String
  | noneType => "NoneType"
  | bool => "bool"
  | int => "int"
  | float => "float"
  | text => "str"
  | complex => "complex"
  | fraction => "Fraction"
  | list => "list"
  | bytes => "bytes"

/-- The name of a type. -/
def ValueType.name : ValueType → String
  | basic t => t.name
  | declared c => c.name

/-- The kind of a type of the language. -/
def BasicType.kind : BasicType → Kind
  | noneType => .flag
  | bool => .boolean
  | int => .integer
  | float => .scalar
  | text => .string
  | complex | fraction | list | bytes => .value

/-- The kind of a type. -/
def ValueType.kind : ValueType → Kind
  | basic t => t.kind
  | declared c => c.maker.kind

/-- What stands for a value of a kind in usage messages; a flag has none. -/
def Kind.placeholder : Kind → String
  | .string => "STRING"
  | .scalar => "SCALAR"
  | .integer => "INTEGER"
  | .boolean => "BOOLEAN"
  | .value => "VALUE"
  | .flag => ""

/-- The type of a value; nothing has none. -/
def Value.type? : Value → Option ValueType
  | .nothing => none
  | .bool _ => some .bool
  | .int _ => some .int
  | .float _ => some (.basic .float)
  | .text _ => some .text
  | .complex .. => some (.basic .complex)
  | .fraction _ => some (.basic .fraction)
  | .ints _ | .chars _ => some (.basic .list)
  | .object c _ => some (.declared c)

/-! ### From values to text -/

/-- What is raised for a whole number with too many digits to be written. -/
def digitLimit : Fault :=
  ⟨"ValueError", s!"Exceeds the limit ({maxDigits} digits) for integer string conversion; " ++
    "use sys.set_int_max_str_digits() to increase the limit"⟩

/-- The digits of a whole number. -/
def intText (n : Int) : Shown :=
  if n.natAbs < timesPow 1 10 maxDigits then .ok (toString n) else .error digitLimit

/-- Items in brackets. -/
def bracketed (items : List String) : String :=
  "[" ++ ", ".intercalate items ++ "]"

/-- A value as it is shown in messages. -/
def Value.display : Value → Shown
  | .nothing => .ok "None"
  | .bool b => .ok (if b then "True" else "False")
  | .int n => intText n
  | .float x => .ok (floatText x)
  | .text s => .ok s
  | .complex re im => .ok (complexText re im)
  | .fraction q => do
    let num ← intText q.num
    if q.den = 1 then return num
    return num ++ "/" ++ (← intText q.den)
  | .ints ns => bracketed <$> ns.mapM intText
  | .chars cs => .ok (bracketed (cs.map fun c => Text.literal c.toString))
  | .object _ shown => shown

/-- Whether a value is a text, be it of a class of its own. -/
def Value.isText : Value → Bool
  | .text _ => true
  | .object c _ => c.maker.kind == .string
  | _ => false

/-- A value as it is quoted in messages: texts between double quotes. -/
def Value.quoted (v : Value) : Shown :=
  if v.isText then v.display.map fun s => s!"\"{s}\"" else v.display

/-- The text that stands for a value: `1` and `0` for the truth values, and nothing for nothing. -/
def Value.toText : Value → Shown
  | .nothing => .ok ""
  | .bool b => .ok (if b then "1" else "0")
  | v => v.display

/-! ### From text to values -/

/-- A text is not a value of the type of a parameter. -/
structure ValueError where
  parameter : String
  typeName : String
  text : String
  deriving DecidableEq

/-- Why a text is not read as a value: it is none of the type, or the type raises another error. -/
inductive ReadError
  | value (error : ValueError)
  | fault (error : Fault)
  deriving DecidableEq

/-- The wording for a value, as it is quoted, that does not fit the type of a parameter. -/
def mismatch (parameter typeName quoted : String) : String :=
  s!"Cannot parse value {quoted} of parameter '{parameter}' as a {typeName}"

/-- The wording of a value error. -/
def ValueError.message (e : ValueError) : String :=
  mismatch e.parameter e.typeName s!"\"{e.text}\""

/-- The wording of a read error. -/
def ReadError.message : ReadError → String
  | value e => e.message
  | fault e => e.message

/-- What has been read of a text, which does not fit otherwise. -/
def fitting {α : Type} : Option α → Except Rejection α
  | some x => .ok x
  | none => .error .unfit

/-- The value of a type of the language that a text stands for. Any text but `1` stands for false, any at all for nothing. -/
def BasicType.read (text : String) : BasicType → Except Rejection Value
  | noneType => .ok .nothing
  | bool => .ok (.bool (text == "1"))
  | BasicType.text => .ok (.text text)
  | int => return .int (← fitting (readInt? text))
  | float => return .float (← fitting (readFloat? text))
  | complex => do
    let (re, im) ← fitting (readComplex? text)
    return .complex re im
  | fraction => return .fraction (← fitting (readRat? text))
  | list => .ok (.chars text.toList)
  | bytes => .error .unfit

/-- The object of a class that a text stands for. -/
def Class.read (text : String) (c : Class) : Except Rejection Value :=
  match c.maker with
  | .string => .ok (.text text)
  | .integer make => do return .object c (← make (← fitting (readInt? text)))
  | .scalar make => do return .object c (← make (← fitting (readFloat? text)))
  | .value make => do return .object c (← make text)

/-- The value of a type that a text stands for. -/
def ValueType.read (text : String) : ValueType → Except Rejection Value
  | basic t => t.read text
  | declared c => c.read text

/-- Reads the value of a parameter, which has no value if it has no type. A text that does not fit is an error that names it; any
other error of the type is passed on. -/
def coerce (type : Option ValueType) (text parameter : String) : Except ReadError Value :=
  match type with
  | none => .ok .nothing
  | some t => match t.read text with
    | .ok v => .ok v
    | .error .unfit => .error (.value ⟨parameter, t.name, text⟩)
    | .error (.fault e) => .error (.fault e)

end RunParams
