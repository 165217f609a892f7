import DemoScaffold.Config.File
import DemoScaffold.Proofs.FileTree.Changes
import DemoScaffold.Proofs.Json.Written
import DemoScaffold.Proofs.Text.Encoding

/-!
# Saved configurations

What is written for a configuration is read back as that configuration (`Config.ofText_written`), so a
configuration that has been saved is loaded as it was, and saving it changes nothing but its file.
-/

namespace DemoScaffold

open Json

variable {v w indent : List Char} {ts us : List Token}

/-! ## The written form -/

theorem spells_writeMembers (hindent : ∀ c ∈ indent, isSpace c = true) (key key' : String)
    (hv : Spells v ts) (hw : Spells w us) :
    Spells (writeMembers indent [(key.toList, v), (key'.toList, w)])
      (memberTokens key key' ts us) := by
  have hblanks : Spells [' ', ' '] [] := fun _ => rfl
  have hopen : Spells ['\x7b', '\n'] [.openObject] := fun _ => rfl
  have hcolon : Spells [':', ' '] [.colon] := fun _ => rfl
  have hcomma : Spells [',', '\n'] [.comma] := fun _ => rfl
  have hline (k : String) {value : List Char} {tokens : List Token} (h : Spells value tokens) :
      Spells (indent ++ [' ', ' '] ++ quoted k.toList ++ [':', ' '] ++ value)
        (.text (.ok k.toList) :: .colon :: tokens) :=
    ((((Spells.blank hindent).append hblanks).append (.text k.toList)).append hcolon).append h
  have hclose : Spells ['}'] [.closeObject] := fun _ => rfl
  have hall := (((hopen.append (((hline key hv).append hcomma).append (hline key' hw))).append
    (.blank (s := ['\n']) (List.all_eq_true.mp (by decide)))).append (.blank hindent)).append hclose
  simpa [writeMembers, memberTokens] using hall

namespace ModuleEntry

/-- The tokens of a written entry. -/
def tokens (e : ModuleEntry) : List Token :=
  memberTokens "key" "display" [.text (.ok e.key.toList)] [.text (.ok e.display.toList)]

theorem spells_written (e : ModuleEntry) : Spells e.written e.tokens :=
  spells_writeMembers (List.all_eq_true.mp (by decide)) "key" "display" (.text _) (.text _)

theorem takes_tokens (e : ModuleEntry) : Takes ModuleEntry.read e.tokens e := by
  intro rest
  have h : record.read (e.tokens ++ rest) = .ok ((e.key, e.display), rest) :=
    takes_record (by decide) (takes_string "a string" e.key) (takes_string "a string" e.display) rest
  rw [ModuleEntry.read, h]
  rfl

theorem startsItem_tokens (e : ModuleEntry) : StartsItem e.tokens := trivial

end ModuleEntry

namespace Config

/-- The tokens of written entries. -/
def entryTokens : List ModuleEntry → List Token
  | [] => [.openList, .closeList]
  | e :: rest =>
    .openList :: (e.tokens ++ rest.flatMap (fun e => .comma :: e.tokens) ++ [.closeList])

theorem spells_writtenEntries (entries : List ModuleEntry) :
    Spells (writtenEntries entries) (entryTokens entries) := by
  cases entries with
  | nil => exact fun _ => rfl
  | cons e rest =>
      have hline (e : ModuleEntry) : Spells ("    ".toList ++ e.written) e.tokens :=
        (Spells.blank (List.all_eq_true.mp (by decide))).append e.spells_written
      have hopen : Spells ['[', '\n'] [.openList] := fun _ => rfl
      have hcomma : Spells [',', '\n'] [.comma] := fun _ => rfl
      have hclose : Spells "\n  ]".toList [.closeList] := fun _ => rfl
      exact (hopen.append (.separated hcomma e rest fun e _ => hline e)).append hclose

theorem takes_entryTokens (entries : List ModuleEntry) :
    Takes (readList ModuleEntry.read) (entryTokens entries) entries := by
  cases entries with
  | nil => exact takes_list_nil _
  | cons e rest => exact takes_list_cons fun e _ => ⟨e.startsItem_tokens, e.takes_tokens⟩

/-- The tokens of a written configuration. -/
def tokens (c : Config) : List Token :=
  memberTokens "base_dir" "modules" [.text (.ok c.baseDir.text.toList)] (entryTokens c.modules)

theorem spells_written (c : Config) : Spells c.written (c.tokens ++ []) :=
  (spells_writeMembers (List.all_eq_true.mp (by decide)) "base_dir" "modules" (.text _)
    (spells_writtenEntries c.modules)).append (.blank (List.all_eq_true.mp (by decide)))

theorem takes_tokens (c : Config) : Takes record.read c.tokens (c.baseDir.text, c.modules) :=
  takes_record (by decide) (takes_string "path string" c.baseDir.text) (takes_entryTokens c.modules)

theorem ofText_written (c : Config) : ofText c.written = .ok c := by
  rw [ofText, readWhole, c.spells_written.tokens_eq, c.takes_tokens]
  rfl

theorem ofBytes_written (c : Config) (p : Path) :
    ofBytes p (Text.Utf8.encode c.written) = .ok c := by
  rw [ofBytes, Text.Utf8.decode?_encode]
  simp only [ofText_written]

/-! ## Saving and loading -/

variable {t : FileTree} {p : Path} {l : Location} {bytes : List UInt8}

theorem load_of_file (hlocate : t.locate p = .ok l) (hfile : t.lookup l = some (.file bytes)) :
    load (m := StateM FileTree) p t = (ofBytes p bytes, t) := by
  have hbytes : t.fileBytes p = .ok bytes := by
    simp only [FileTree.fileBytes, FileTree.find, hlocate, bind, Except.bind, hfile]
  simp only [load, bind, StateT.bind, Disk.fileBytes, hbytes]
  rfl

end Config

end DemoScaffold
