import Conductor.Proofs.Confinement
import Conductor.Proofs.Plain
import Conductor.Proofs.Reaching
import Conductor.Settings.Load

/-!
# When the defaults stand in for the settings

The settings of a project are read if its entry for them leads to a file. If it leads to anything
else, or to nothing, the defaults hold, as they do without such an entry (`load_by_entry`).
-/

namespace Conductor

namespace Files

variable {root : Node} {path directory name : String}

/-- The path leads to a file, links followed. -/
def LeadsToFile (root : Node) (path : String) (content : Content) : Prop :=
  find? root path = .ok (.file content)

/-- The path leads to a directory, links followed, and in it the name stands for the node. -/
def HasEntry (root : Node) (directory name : String) (node : Node) : Prop :=
  ∃ entries, find? root directory = .ok (.directory entries) ∧
    List.lookup name entries = some node

theorem isFile_iff : isFile root path = true ↔ ∃ content, LeadsToFile root path content := by
  rw [isFile]
  cases hfind : find? root path with
  | error error => simp [LeadsToFile, hfind]
  | ok node => cases node <;> simp [LeadsToFile, hfind, Node.isFile]

theorem LeadsToFile.readText_eq {content : Content} (h : LeadsToFile root path content) :
    readText root path =
      match content.text? with
      | some text => .ok text
      | none => .error .notText := by
  rw [readText, h]
  simp only [bind, Except.bind]
  cases content.text? <;> rfl

theorem readText_of_no_file (h : ∀ content, ¬ LeadsToFile root path content) :
    ∃ error, readText root path = .error error := by
  rw [readText]
  cases hfind : find? root path with
  | error error => exact ⟨error, rfl⟩
  | ok node =>
    cases node with
    | file content => exact absurd hfind (h content)
    | _ => exact ⟨.isDirectory, rfl⟩

theorem Content.text?_ofText (text : String) : (Content.ofText text).text? = some text := by
  have hvalid : text.toUTF8.IsValidUTF8 := text.isValidUTF8
  rw [Content.ofText, Content.text?, String.fromUTF8?, dif_pos hvalid]
  rfl

/-- A name that can be followed is that of an entry. -/
theorem Follows.exists_lookup {throughLast : Bool} {links : Nat} {trail after : Trail}
    {rest : List String} (hname : IsEntryName name)
    (h : Follows root throughLast links trail (name :: rest) after) :
    ∃ entries node, trail.here root = .directory entries ∧
      List.lookup name entries = some node := by
  generalize hall : name :: rest = all at h
  -- the name is none of the two that stand for directories, so the first step looks it up
  cases h with
  | done => cases hall
  | stay =>
    cases hall
    exact absurd rfl hname.1
  | back =>
    cases hall
    exact absurd rfl hname.2
  | enter hhere _ _ hlookup =>
    cases hall
    exact ⟨_, _, hhere, hlookup⟩
  | keep hhere _ _ hlookup =>
    cases hall
    exact ⟨_, _, hhere, hlookup⟩
  | jump hhere _ _ hlookup =>
    cases hall
    exact ⟨_, _, hhere, hlookup⟩

theorem isPlain_settingsFile : Path.IsPlain settingsFile := by decide +kernel

theorem isEntryName_settingsFile : IsEntryName settingsFile := by decide

theorem names_join_settingsFile (directory : String) :
    Path.names (Path.join directory settingsFile) = Path.names directory ++ [settingsFile] := by
  have hnames : Path.names settingsFile = [settingsFile] := by decide +kernel
  rw [Path.names_join isPlain_settingsFile.isAbsolute_eq, hnames]

theorem steps_join_settingsFile (directory : String) :
    Path.steps (Path.join directory settingsFile) =
      Path.names (Path.join directory settingsFile) := by
  rw [Path.steps, asksDirectory_join isPlain_settingsFile, if_neg Bool.false_ne_true]

theorem checkPath_of_join (hdirectory : directory ≠ "")
    (h : checkPath (Path.join directory settingsFile) = .ok ()) :
    checkPath directory = .ok () := by
  rw [checkPath_eq_ok_iff, Path.join, isPlain_settingsFile.isAbsolute_eq,
    if_neg Bool.false_ne_true] at h
  obtain ⟨hnul, -, hsize⟩ := h
  refine checkPath_eq_ok_iff.mpr ⟨fun hmem => hnul ?_, hdirectory, ?_⟩
  · split <;> simp [hmem]
  · split at hsize <;> simp only [String.utf8ByteSize_append] at hsize <;> omega

/-- A path that leads anywhere leads by an entry of the directory. -/
theorem exists_hasEntry (hdirectory : directory ≠ "") {node : Node}
    (h : find? root (Path.join directory settingsFile) = .ok node) :
    ∃ node, HasEntry root directory settingsFile node := by
  obtain ⟨after, hcheck, hfollows, -⟩ := exists_follows_of_find? h
  rw [names_join_settingsFile] at hfollows
  obtain ⟨middle, fewer, hmiddle, hlast⟩ := hfollows.exists_middle
  obtain ⟨entries, node, hhere, hlookup⟩ := hlast.exists_lookup isEntryName_settingsFile
  exact ⟨node, entries, find?_of_follows (checkPath_of_join hdirectory hcheck) hmiddle hhere,
    hlookup⟩

/-- An entry that is no link is where the path leads. -/
theorem HasEntry.exists_follows {node : Node} (h : HasEntry root directory settingsFile node)
    (hnode : ∀ target, node ≠ .link target) :
    ∃ before, Follows root true maxLinks [] (Path.names (Path.join directory settingsFile))
      ((settingsFile, node) :: before) := by
  obtain ⟨entries, hfind, hlookup⟩ := h
  obtain ⟨before, -, hbefore, hhere⟩ := exists_follows_of_find? hfind
  refine ⟨before, ?_⟩
  rw [names_join_settingsFile]
  exact hbefore.append fun _ =>
    .enter hhere isEntryName_settingsFile (by decide) hlookup hnode .done

theorem HasEntry.leadsToFile {content : Content}
    (h : HasEntry root directory settingsFile (.file content))
    (hcheck : checkPath (Path.join directory settingsFile) = .ok ()) :
    LeadsToFile root (Path.join directory settingsFile) content := by
  obtain ⟨before, hbefore⟩ := h.exists_follows (by simp)
  rw [← steps_join_settingsFile] at hbefore
  exact find?_of_trail (trailTo_eq_ok_iff.mpr ⟨hcheck, hbefore⟩)

theorem HasEntry.not_leadsToFile {entries : Entries}
    (h : HasEntry root directory settingsFile (.directory entries)) (content : Content) :
    ¬ LeadsToFile root (Path.join directory settingsFile) content := by
  intro hfile
  obtain ⟨before, hbefore⟩ := h.exists_follows (by simp)
  have hnode := find?_eq_here hbefore hfile
  cases hnode

end Files

namespace Settings

open Files

def ofContent (path : String) (content : Content) : Except Failure Settings :=
  match content.text? with
  | some text => ofText text
  | none => .error ((Failure.ofCause (.system .notText)).within
      ("Failed to read configuration from " ++ path))

variable {root : Node} {path directory : String}

theorem loadFile_of_file {content : Content} (h : LeadsToFile root path content) :
    loadFile root path = ofContent path content := by
  rw [loadFile, h.readText_eq, ofContent]
  cases content.text? <;> rfl

theorem loadFile_of_no_file (h : ∀ content, ¬ LeadsToFile root path content) :
    ∃ error, loadFile root path = .error ((Failure.ofCause (.system error)).within
      ("Failed to read configuration from " ++ path)) := by
  obtain ⟨error, herror⟩ := readText_of_no_file h
  exact ⟨error, by rw [loadFile, herror]⟩

theorem load_of_file {content : Content}
    (h : LeadsToFile root (Path.join directory settingsFile) content) :
    load root directory = ofContent (Path.join directory settingsFile) content := by
  rw [load, if_pos (isFile_iff.mpr ⟨content, h⟩), loadFile_of_file h]

theorem load_of_no_file
    (h : ∀ content, ¬ LeadsToFile root (Path.join directory settingsFile) content) :
    load root directory = .ok {} := by
  have hfile : ¬ isFile root (Path.join directory settingsFile) = true := by
    rw [isFile_iff, not_exists]
    exact h
  rw [load, if_neg hfile]

/-- Without an entry for them the defaults stand in for the settings. An entry that leads to a file
is read, as it is by its path, and gives what its content denotes. Any other entry gives the
defaults as well, although reading it by its path fails. -/
theorem load_by_entry (root : Node) (hdirectory : directory ≠ "") :
    let path := Path.join directory settingsFile
    ((∀ node, ¬ HasEntry root directory settingsFile node) → load root directory = .ok {}) ∧
    ∀ node, HasEntry root directory settingsFile node →
      (∀ content, LeadsToFile root path content →
        load root directory = loadFile root path ∧ loadFile root path = ofContent path content) ∧
      ((∀ content, ¬ LeadsToFile root path content) →
        load root directory = .ok {} ∧
          ∃ error, loadFile root path = .error ((Failure.ofCause (.system error)).within
            ("Failed to read configuration from " ++ path))) ∧
      (∀ content, node = .file content → checkPath path = .ok () →
        LeadsToFile root path content) ∧
      ∀ entries, node = .directory entries → ∀ content, ¬ LeadsToFile root path content := by
  intro path
  refine ⟨fun hnone => load_of_no_file fun content hfile => ?_, fun node hnode => ⟨?_, ?_, ?_, ?_⟩⟩
  · obtain ⟨node, hnode⟩ := exists_hasEntry hdirectory hfile
    exact hnone node hnode
  · intro content hfile
    exact ⟨(load_of_file hfile).trans (loadFile_of_file hfile).symm, loadFile_of_file hfile⟩
  · intro hnofile
    exact ⟨load_of_no_file hnofile, loadFile_of_no_file hnofile⟩
  · rintro content rfl hcheck
    exact hnode.leadsToFile hcheck
  · rintro entries rfl
    exact hnode.not_leadsToFile

/-- A project with a node in the place of the file of its settings. -/
def projectWith (node : Node) : Node :=
  .directory [("p", .directory [(settingsFile, node)])]

/-- The settings in a file are those that its text says. -/
theorem load_by_entry_file :
    let files := projectWith (.file (.ofText (onlyDir "out")))
    "/p" ≠ "" ∧ HasEntry files "/p" settingsFile (.file (.ofText (onlyDir "out"))) ∧
      load files "/p" = .ok { dir := "out" } := by
  intro files
  have hdirectory : "/p" ≠ "" := by decide
  have hentry : HasEntry files "/p" settingsFile (.file (.ofText (onlyDir "out"))) :=
    ⟨_, rfl, rfl⟩
  obtain ⟨hread, -, hfile, -⟩ := (load_by_entry files hdirectory).2 _ hentry
  obtain ⟨hload, hcontent⟩ := hread _ (hfile _ rfl (by decide))
  refine ⟨hdirectory, hentry, ?_⟩
  rw [hload, hcontent, ofContent, Content.text?_ofText]
  dsimp only
  rw [ofText, parse_onlyDir ⟨'o', by decide, by decide⟩]

/-- A directory in the place of the settings, or a link that leads nowhere, gives the defaults,
although neither can be read. -/
theorem load_ignores_unreadable :
    let taken := projectWith (.directory [])
    let dangling := projectWith (.link "gone")
    HasEntry taken "/p" settingsFile (.directory []) ∧ load taken "/p" = .ok {} ∧
      (loadFile taken "/p/Eugene.toml").isOk = false ∧
      HasEntry dangling "/p" settingsFile (.link "gone") ∧ load dangling "/p" = .ok {} ∧
      (loadFile dangling "/p/Eugene.toml").isOk = false := by
  intro taken dangling
  exact ⟨⟨_, rfl, rfl⟩, rfl, rfl, ⟨_, rfl, rfl⟩, rfl, rfl⟩

end Settings

end Conductor
