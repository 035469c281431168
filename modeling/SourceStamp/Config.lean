import SourceStamp.Event
import SourceStamp.Json.Reader
import SourceStamp.Text.Blank

/-! The configuration: the directory that paths are made relative to, and the function that stands
in for `$debug`. A configuration that cannot be read is replaced by the defaults as a whole. -/

set_option autoImplicit false

namespace SourceStamp

structure Config where
  baseDir : Option String
  debugCallee : String
  deriving DecidableEq

namespace Config

def defaultDebugCallee : String := "debugPrint"

def defaults : Config := ⟨none, defaultDebugCallee⟩

structure Draft where
  baseDir : Option (Option String)
  debugCallee : Option String

def Draft.empty : Draft := ⟨none, none⟩

def Draft.config (draft : Draft) : Config :=
  ⟨draft.baseDir.getD none, draft.debugCallee.getD defaultDebugCallee⟩

def textOrNull? : Json → Option (Option String)
  | .null => some none
  | .string (some text) => some (some text)
  | _ => none

/-- Adds a member; unknown ones are skipped, known ones may come once. -/
def Draft.add? (draft : Draft) : Option String × Json → Option Draft
  | (none, _) => none
  | (some key, value) =>
    if key = "baseDir" then
      if draft.baseDir.isSome then none
      else (textOrNull? value).map fun dir => ⟨some dir, draft.debugCallee⟩
    else if key = "debugCallee" then
      if draft.debugCallee.isSome then none
      else value.text?.map fun callee => ⟨draft.baseDir, some callee⟩
    else some draft

/-- A configuration is an object of named members or an array of the two values in order. -/
def ofJson? : Json → Option Config
  | .object members => (members.foldlM Draft.add? Draft.empty).map Draft.config
  | .array [] => some defaults
  | .array [dir] => (textOrNull? dir).map fun dir => ⟨dir, defaultDebugCallee⟩
  | .array [dir, callee] => do
    let dir ← textOrNull? dir
    let callee ← callee.text?
    return ⟨dir, callee⟩
  | _ => none

def isIdentifierStart (c : Char) : Bool := c.isAlpha || c = '_' || c = '$'

def isIdentifier : List Char → Bool
  | [] => false
  | c :: cs => isIdentifierStart c && cs.all fun c => isIdentifierStart c || c.isDigit

def isBlankText (text : String) : Bool := text.toList.all Text.isBlank

def withoutBlankDir (config : Config) : Config :=
  ⟨config.baseDir.filter fun dir => !isBlankText dir, config.debugCallee⟩

def withValidCallee (config : Config) : Config × List Event :=
  if isIdentifier config.debugCallee.toList then (config, [])
  else (⟨config.baseDir, defaultDebugCallee⟩, [.invalidDebugCallee config.debugCallee])

/-- The values in a text as they stand there; a blank text or none gives the defaults. -/
def read? (raw : Option String) : Option Config :=
  let text := Text.trim ((raw.getD "").toList)
  if text.isEmpty then some defaults else Json.read? (String.ofList text) >>= ofJson?

def load (raw : Option String) : Config × List Event :=
  match read? raw with
  | none => (defaults, [.invalidConfig])
  | some config => config.withoutBlankDir.withValidCallee

example : load (some " [null, \"log\"] ") = (⟨none, "log"⟩, []) := by decide

example : load (some "[null, \"1st\"]") = (defaults, [.invalidDebugCallee "1st"]) := by decide

end Config

end SourceStamp
