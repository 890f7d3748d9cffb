import Handheld.Compression.Encoding
import Handheld.Database.Key

/-! # Options — what an executable is packed into

    The kind of product decides what is not asked for otherwise:

    | product     | database type | main code | data    |
    |-------------|---------------|-----------|---------|
    | application | `appl`        | `code #1` | emitted |
    | library     | `libr`        | `libr #0` | not     |
    | generic     | `????`        | `code #1` | emitted |
 -/

namespace Handheld

/-- The type of code resources. -/
def codeType : Tag := .ofChars 'c' 'o' 'd' 'e'

/-- The type of data resources. -/
def dataType : Tag := .ofChars 'd' 'a' 't' 'a'

/-- The type of preference resources. -/
def prefType : Tag := .ofChars 'p' 'r' 'e' 'f'

/-- The type of relocation resources. -/
def rlocType : Tag := .ofChars 'r' 'l' 'o' 'c'

/-- The type of trap resources. -/
def trapType : Tag := .ofChars 'T' 'R' 'A' 'P'

/-- The type of library databases and of the code in them. -/
def libraryType : Tag := .ofChars 'l' 'i' 'b' 'r'

/-- The tag of what has none. -/
def unknownTag : Tag := .ofChars '?' '?' '?' '?'

/-- A kind of product. -/
inductive Product where
  | application
  | library
  | generic
deriving DecidableEq

namespace Product

/-- The name of a product. -/
def text : Product → String
  | .application => "application"
  | .library => "library"
  | .generic => "generic"

/-- The product of a name. -/
def ofText? (text : String) : Option Product :=
  [application, library, generic].find? (·.text = text)

/-- The type of its databases. -/
def databaseType : Product → Tag
  | .application => .ofChars 'a' 'p' 'p' 'l'
  | .library => libraryType
  | .generic => unknownTag

/-- The key of its main code. -/
def mainCode : Product → ResourceKey
  | .application => ⟨codeType, 1⟩
  | .library => ⟨libraryType, 0⟩
  | .generic => ⟨codeType, 1⟩

/-- Whether it has a data resource. -/
def emitsData : Product → Bool
  | .application => true
  | .library => false
  | .generic => true

end Product

/-- How an executable is packed. -/
structure PackOptions where
  product : Product
  mainCode : ResourceKey
  emitData : Bool
  stackSize : UInt32
  heapSize : UInt32
  /-- The names of further sections to become code resources, in order. -/
  extraCode : List String
  effort : Compression.Effort
  forceRelocations : Bool
deriving DecidableEq

namespace PackOptions

/-- The size of the stack if none is asked for. -/
def standardStackSize : UInt32 := 4096

/-- The size of the heap if none is asked for. -/
def standardHeapSize : UInt32 := 4096

/-- The options of a product. -/
def standard (product : Product) : PackOptions where
  product := product
  mainCode := product.mainCode
  emitData := product.emitsData
  stackSize := standardStackSize
  heapSize := standardHeapSize
  extraCode := []
  effort := .standard
  forceRelocations := false

end PackOptions

end Handheld
