/-! File names and lexical relative paths. Nothing here asks a file system: a path is read as its
segments between slashes, and a leading drive letter is an ordinary first segment that names a root. -/

set_option autoImplicit false

namespace SourceStamp.Path

def after? (start cs : List Char) : Option (List Char) := start.isPrefixOf? cs

def hasDrive : List Char → Bool
  | letter :: ':' :: _ => letter.isAlpha
  | _ => false

/-- Forward slashes only, and no `file:` scheme. A file URL with three slashes keeps the last one as
the root, unless a drive letter follows. -/
def normalizeChars (name : List Char) : List Char :=
  let slashed := name.map fun c => if c = '\\' then '/' else c
  match after? "file:///".toList slashed with
  | some rest => if hasDrive rest then rest else '/' :: rest
  | none => (after? "file://".toList slashed).getD slashed

def isAbsolute (path : List Char) : Bool := path.head? == some '/' || hasDrive path

def splitSlash : List Char → List (List Char)
  | [] => [[]]
  | c :: cs =>
    if c = '/' then [] :: splitSlash cs
    else match splitSlash cs with
      | [] => [[c]]
      | part :: parts => (c :: part) :: parts

/-- The parts that name something: neither empty nor `.`. -/
def segments (path : List Char) : List (List Char) :=
  (splitSlash path).filter fun part => !part.isEmpty && part != ['.']

def join (parts : List (List Char)) : List Char := ['/'].intercalate parts

def sameIgnoringCase (a b : List Char) : Bool := a.map Char.toLower == b.map Char.toLower

def commonLength : List (List Char) → List (List Char) → Nat
  | a :: as, b :: bs => if a = b then commonLength as bs + 1 else 0
  | _, _ => 0

/-- Whether the base lies on a drive that the target does not start with. -/
def onOtherDrive (base target : List (List Char)) : Bool :=
  match base with
  | [] => false
  | drive :: _ => hasDrive drive && !sameIgnoringCase drive (target.headD [])

def ascend (base target : List (List Char)) : List (List Char) :=
  let common := commonLength base target
  List.replicate (base.length - common) ['.', '.'] ++ target.drop common

def relativeChars (base : Option (List Char)) (path : List Char) : List Char :=
  let path := normalizeChars path
  if !isAbsolute path then join (segments path)
  else match base.map normalizeChars with
    | none => path
    | some base =>
      if !isAbsolute base then path
      else if onOtherDrive (segments base) (segments path) then path
      else join (ascend (segments base) (segments path))

def normalize (name : String) : String := String.ofList (normalizeChars name.toList)

/-- The way from the directory `base` to `path`, both normalized first. A relative path comes back
as its segments; without an absolute base, or from a base on another drive, the normalized path
does. -/
def relative (base : Option String) (path : String) : String :=
  String.ofList (relativeChars (base.map String.toList) path.toList)

example : normalize "file:///C:\\src\\a.ts" = "C:/src/a.ts" := by decide

example : relative (some "/app/web") "/app/lib/./util.ts" = "../lib/util.ts" := by decide

-- Two spellings of a drive are the same drive, but not the same segment.
example : relative (some "c:/app") "C:/app/a.ts" = "../../C:/app/a.ts" := by decide

end SourceStamp.Path
