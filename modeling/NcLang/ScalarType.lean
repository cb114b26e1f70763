import NcLang.Text.Decimal

/-! # Scalar types

A scalar type is an integer or a floating-point number of some size, and says how a holder of it
may be accessed. A value of `ScalarType` has a size that its family has; `ScalarType.make` is the
checked way to build one. The second half of the module spells types in C, where some uses of a
type have no spelling.
-/

namespace NcLang

/-- How a holder of a value may be accessed. -/
inductive Access where
  | readOnly
  | writeOnly
  | readWrite
  deriving DecidableEq

namespace Access

/-- Whether the value may be read. -/
def isReadable : Access → Bool
  | .readOnly | .readWrite => true
  | .writeOnly => false

/-- Whether the value may be written. -/
def isWritable : Access → Bool
  | .writeOnly | .readWrite => true
  | .readOnly => false

end Access

/-- The families of numbers. -/
inductive NumberFamily where
  | int
  | float
  deriving DecidableEq

namespace NumberFamily

/-- The sizes, in bytes, that numbers of the family have. -/
def byteSizes : NumberFamily → List Nat
  | .int => [1, 2, 4, 8]
  | .float => [4, 8]

/-- The word for the family in diagnostics. -/
def name : NumberFamily → String
  | .int => "int"
  | .float => "float"

end NumberFamily

/-- A scalar type. Floating-point types carry a sign flag as well, which no spelling shows. -/
structure ScalarType where
  family : NumberFamily
  signed : Bool
  byteSize : Nat
  access : Access
  legal : byteSize ∈ family.byteSizes
  deriving DecidableEq

/-- Why there is no such type, or why a type may not be used in some place. -/
inductive TypeFault where
  | notPowerOfTwo (byteSize : Nat)
  | invalidByteSize (byteSize : Nat) (family : NumberFamily)
  | writeOnlyVariable
  | writableReturn
  deriving DecidableEq

/-- The wording of the fault in diagnostics. -/
def TypeFault.message : TypeFault → String
  | .notPowerOfTwo _ => "byte_size is not a power of 2"
  | .invalidByteSize byteSize family =>
    "invalid byte size of " ++ Text.natural byteSize ++ " bytes for " ++ family.name
  | .writeOnlyVariable => "write-only type used in variable declaration"
  | .writableReturn => "writable type used as return type"

namespace ScalarType

/-- The type spelled `i32` in programs. -/
def i32 : ScalarType where
  family := .int
  signed := true
  byteSize := 4
  access := .readOnly
  legal := by decide

/-- The type with these properties, if the family has numbers of this size. -/
def make (family : NumberFamily) (signed : Bool) (byteSize : Nat) (access : Access) :
    Except TypeFault ScalarType :=
  if byteSize.isPowerOfTwo then
    if legal : byteSize ∈ family.byteSizes then
      .ok { family, signed, byteSize, access, legal }
    else
      .error (.invalidByteSize byteSize family)
  else
    .error (.notPowerOfTwo byteSize)

/-- The same numbers with another access. -/
def withAccess (type : ScalarType) (access : Access) : ScalarType :=
  { type with access }

/-- Whether a value of the first type can stand where the second is expected, without losing part of
it. -/
def compatible (type expected : ScalarType) : Bool :=
  type.family = expected.family && type.signed = expected.signed &&
    type.byteSize ≤ expected.byteSize

/-- Whether two types have the same values. -/
def exact (type expected : ScalarType) : Bool :=
  type.family = expected.family && type.signed = expected.signed &&
    type.byteSize = expected.byteSize

/-- The type as diagnostics and trees show it: access, family and number of bits. -/
def display (type : ScalarType) : String :=
  let access :=
    match type.access with
    | .readOnly => ""
    | .writeOnly => "writeonly "
    | .readWrite => "mut "
  let family :=
    match type.family, type.signed with
    | .float, _ => "f"
    | .int, true => "i"
    | .int, false => "u"
  access ++ family ++ Text.natural (type.byteSize * 8)

/-! ## Spelling in C -/

/-- The C name of the numbers, without qualifiers. -/
def cName (type : ScalarType) : String :=
  match type.family, type.signed, type.byteSize with
  | .int, true, 1 => "char"
  | .int, true, 2 => "short"
  | .int, true, 4 => "int"
  | .int, true, _ => "long long"
  | .int, false, 1 => "unsigned char"
  | .int, false, 2 => "unsigned short"
  | .int, false, 4 => "unsigned int"
  | .int, false, _ => "unsigned long long"
  | .float, _, 4 => "float"
  | .float, _, _ => "double"

/-- The spelling that declares a variable. A variable that cannot be read has none. -/
def cVariable (type : ScalarType) : Except TypeFault String :=
  match type.access with
  | .readOnly => .ok ("const " ++ type.cName)
  | .readWrite => .ok type.cName
  | .writeOnly => .error .writeOnlyVariable

/-- The spelling in declarations such as parameters, where a writable value is passed by pointer. -/
def cParameter (type : ScalarType) : String :=
  if type.access.isWritable then type.cName ++ "*" else "const " ++ type.cName

/-- The spelling of a function's result. A writable result has none. -/
def cReturn (type : ScalarType) : Except TypeFault String :=
  if type.access.isWritable then .error .writableReturn else .ok type.cName

end ScalarType

end NcLang
