import DemoScaffold.Config.Basic
import DemoScaffold.Json.Reader

/-!
# The format of configuration files

A configuration is written as an indented JSON object with its fields in order. A text that is read
may have the fields in any order, further ones, and lists in place of the objects.
-/

namespace DemoScaffold

def ModuleEntry.record : Json.Record String String where
  name := "struct ModuleEntry"
  first := ⟨"key", Json.readString "a string"⟩
  second := ⟨"display", Json.readString "a string"⟩

def ModuleEntry.read : Json.Reader ModuleEntry := fun ts => do
  let ((key, display), rest) ← ModuleEntry.record.read ts
  return (⟨key, display⟩, rest)

/-- A list of two JSON members, each on a line of its own behind the given blanks. -/
def writeMembers (indent : List Char) (members : List (List Char × List Char)) : List Char :=
  let line (m : List Char × List Char) : List Char :=
    indent ++ [' ', ' '] ++ Json.quoted m.1 ++ [':', ' '] ++ m.2
  ['\x7b', '\n'] ++ [',', '\n'].intercalate (members.map line) ++ ['\n'] ++ indent ++ ['}']

/-- An entry as written, behind four blanks. -/
def ModuleEntry.written (e : ModuleEntry) : List Char :=
  writeMembers "    ".toList
    [("key".toList, Json.quoted e.key.toList), ("display".toList, Json.quoted e.display.toList)]

namespace Config

def record : Json.Record String (List ModuleEntry) where
  name := "struct GeneratorConfig"
  first := ⟨"base_dir", Json.readString "path string"⟩
  second := ⟨"modules", Json.readList ModuleEntry.read⟩

def ofText (s : List Char) : Except JsonFault Config := do
  let (baseDir, modules) ← Json.readWhole record.read s
  return ⟨⟨baseDir⟩, modules⟩

/-- The entries as written, behind two blanks. -/
def writtenEntries : List ModuleEntry → List Char
  | [] => ['[', ']']
  | entries =>
    let line (e : ModuleEntry) : List Char := "    ".toList ++ e.written
    ['[', '\n'] ++ [',', '\n'].intercalate (entries.map line) ++ "\n  ]".toList

def written (c : Config) : List Char :=
  writeMembers []
    [("base_dir".toList, Json.quoted c.baseDir.text.toList),
      ("modules".toList, writtenEntries c.modules)]
    ++ ['\n']

end Config

end DemoScaffold
