import SqlPipeline.Files.Path
import SqlPipeline.Text.Utf8

/-!
# Paths of files

The path of a file need not be a text: the system takes any bytes for it. Slashes and points are the
same bytes in both kinds of paths. A path that is no text is shown as far as it can be read.
-/

namespace SqlPipeline

/-- The path of a file. -/
inductive FilePath where
  | text (path : String)
  /-- A path whose bytes encode no text. -/
  | bytes (path : List UInt8) (foreign : Text.ofUtf8? path = none)
deriving DecidableEq, Repr

namespace FilePath

instance : Coe String FilePath := ⟨text⟩

/-- The path in words. -/
def shown : FilePath → String
  | text path => path
  | bytes path _ => Text.shownUtf8 path

/-- The path if it is a text. -/
def text? : FilePath → Option String
  | text path => some path
  | bytes _ _ => none

/-- The bytes of a path. -/
def toBytes : FilePath → List UInt8
  | text path => path.toList.flatMap String.utf8EncodeChar
  | bytes path _ => path

/-- Some bytes as a text that has the character with its number for each of them. -/
def spread (bytes : List UInt8) : String :=
  String.ofList (bytes.map fun byte => Char.ofNat byte.toNat)

/-- The bytes that are the characters of a text. -/
def gather (spread : String) : List UInt8 := spread.toList.map fun c => UInt8.ofNat c.toNat

/-- The bytes of the file name without its extension. -/
def stemBytes? (path : FilePath) : Option (List UInt8) :=
  (Path.fileStem? (spread path.toBytes)).map gather

/-- The file name without its extension, if it is a text. -/
def fileStem? : FilePath → Option String
  | text path => Path.fileStem? path
  | bytes path foreign => (stemBytes? (bytes path foreign)).bind Text.ofUtf8?

end FilePath
end SqlPipeline
