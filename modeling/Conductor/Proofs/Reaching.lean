import Conductor.Proofs.Directories
import Conductor.Proofs.Spelling

/-!
# What a path leads to by its last name

A path leads to what its last name stands for in the directory that the names before it lead to. A
way through a tree is a way through every tree that extends it (`Follows.extend`), so a directory
that was made is found by the path for which it was made (`IsVacant.find?_put`).
-/

namespace Conductor.Files

/-- All that stands in the smaller tree stands in the larger one. -/
def Node.Extends (larger root : Node) : Prop :=
  ∀ place node, root.bareAt place = some node → larger.bareAt place = some node

theorem Node.extends_put {root : Node} {place : Place} {name : String} {entries : Entries}
    (hplace : root.get? place = some (.directory entries)) (h : List.lookup name entries = none) :
    (root.put place name (.directory [])).Extends root := by
  intro other node hnode
  rw [Node.bareAt_put hplace h, hnode]
  rintro rfl
  rw [Node.bareAt, Node.get?_append, hplace, Option.bind_some, Node.get?_cons, h] at hnode
  cases hnode

theorem Node.bare_eq_directory {node : Node} (h : node.bare = .directory []) :
    ∃ entries, node = .directory entries := by
  cases node with
  | directory entries => exact ⟨entries, rfl⟩
  | _ => cases h

theorem Node.bare_eq_link {node : Node} {target : String} (h : node.bare = .link target) :
    node = .link target := by
  cases node with
  | link => exact h
  | _ => cases h

section

variable {root larger : Node} {throughLast : Bool} {links : Nat} {trail after : Trail}
  {steps : List String}

theorem Trail.place_tail (trail : Trail) : Trail.place trail.tail = trail.place.dropLast := by
  simp [Trail.place]

/-- Where a link goes on is a way through the tree. -/
theorem Trail.Sound.start (h : trail.Sound root) (target : String) :
    Trail.Sound root (if Path.isAbsolute target then [] else trail) := by
  split
  · trivial
  · exact h

/-- The directory at the end of a way is one in the larger tree, too, and has all its entries. -/
theorem Node.Extends.exists_entries (hlarger : larger.Extends root) {trail' : Trail}
    {entries : Entries} (htrail : trail.Sound root) (htrail' : trail'.Sound larger)
    (hplace : trail'.place = trail.place) (hhere : trail.here root = .directory entries) :
    ∃ entries', trail'.here larger = .directory entries' ∧
      ∀ name node, List.lookup name entries = some node →
        ∃ node', List.lookup name entries' = some node' ∧ node'.bare = node.bare := by
  have hget : root.get? trail.place = some (.directory entries) := by
    rw [htrail.get?_place, hhere]
  have hget' := htrail'.get?_place
  rw [hplace] at hget'
  have hbare : larger.bareAt trail.place = some (.directory []) :=
    hlarger _ _ (by rw [Node.bareAt, hget]; rfl)
  rw [Node.bareAt, hget'] at hbare
  obtain ⟨entries', hhere'⟩ := Node.bare_eq_directory (Option.some.inj hbare)
  rw [hhere'] at hget'
  refine ⟨entries', hhere', fun name node hlookup => ?_⟩
  have hbelow : larger.bareAt (trail.place ++ [name]) = some node.bare := by
    refine hlarger _ _ ?_
    rw [Node.bareAt, Node.get?_append, hget, Option.bind_some, Node.get?_cons, hlookup]
    rfl
  rw [Node.bareAt, Node.get?_append, hget', Option.bind_some, Node.get?_cons] at hbelow
  obtain ⟨node', hnode', hsame⟩ := Option.map_eq_some_iff.mp hbelow
  refine ⟨node', ?_, hsame⟩
  cases hlookup' : List.lookup name entries' with
  | none =>
    rw [hlookup'] at hnode'
    cases hnode'
  | some found =>
    rw [hlookup'] at hnode'
    exact hnode'

/-- What can be followed in a tree can be followed to the same place in a larger one. -/
theorem Follows.extend (h : Follows root throughLast links trail steps after)
    (hlarger : larger.Extends root) {trail' : Trail} (htrail : trail.Sound root)
    (htrail' : trail'.Sound larger) (hplace : trail'.place = trail.place) :
    ∃ after', Follows larger throughLast links trail' steps after' ∧
      after'.place = after.place := by
  -- the nodes on the two ways may differ below, so only their places are carried along
  induction h generalizing trail' with
  | done => exact ⟨trail', .done, hplace⟩
  | stay hhere _ ih =>
    obtain ⟨entries', hhere', -⟩ := hlarger.exists_entries htrail htrail' hplace hhere
    obtain ⟨after', hafter, hsame⟩ := ih htrail htrail' hplace
    exact ⟨after', .stay hhere' hafter, hsame⟩
  | back hhere _ ih =>
    obtain ⟨entries', hhere', -⟩ := hlarger.exists_entries htrail htrail' hplace hhere
    obtain ⟨after', hafter, hsame⟩ := ih htrail.tail htrail'.tail
      (by rw [Trail.place_tail, Trail.place_tail, hplace])
    exact ⟨after', .back hhere' hafter, hsame⟩
  | @enter _ trail _ name _ _ node hhere hname hsize hlookup hnode _ ih =>
    obtain ⟨entries', hhere', hmore⟩ := hlarger.exists_entries htrail htrail' hplace hhere
    obtain ⟨node', hlookup', hbare⟩ := hmore _ _ hlookup
    have hnode' (target : String) : node' ≠ .link target := by
      rintro rfl
      exact hnode target (Node.bare_eq_link hbare.symm)
    obtain ⟨after', hafter, hsame⟩ := @ih ((name, node') :: trail')
      ⟨htrail, _, hhere, hlookup⟩ ⟨htrail', _, hhere', hlookup'⟩
      (by rw [Trail.place_cons, Trail.place_cons, hplace])
    exact ⟨after', .enter hhere' hname hsize hlookup' hnode' hafter, hsame⟩
  | keep hhere hname hsize hlookup hlast =>
    obtain ⟨entries', hhere', hmore⟩ := hlarger.exists_entries htrail htrail' hplace hhere
    obtain ⟨node', hlookup', hbare⟩ := hmore _ _ hlookup
    obtain rfl := Node.bare_eq_link hbare
    exact ⟨_, .keep hhere' hname hsize hlookup' hlast,
      by rw [Trail.place_cons, Trail.place_cons, hplace]⟩
  | @jump _ trail _ _ _ _ target hhere hname hsize hlookup hgo _ ih =>
    obtain ⟨entries', hhere', hmore⟩ := hlarger.exists_entries htrail htrail' hplace hhere
    obtain ⟨node', hlookup', hbare⟩ := hmore _ _ hlookup
    obtain rfl := Node.bare_eq_link hbare
    obtain ⟨after', hafter, hsame⟩ := ih (htrail.start target) (htrail'.start target)
      (by split <;> [rfl; exact hplace])
    exact ⟨after', .jump hhere' hname hsize hlookup' hgo hafter, hsame⟩

/-- A way can be continued by steps that need no link. -/
theorem Follows.append {middle : Trail} {rest : List String}
    (h : Follows root true links trail steps middle)
    (hrest : ∀ fewer, Follows root true fewer middle rest after) :
    Follows root true links trail (steps ++ rest) after := by
  induction h with
  | done => exact hrest _
  | stay hhere _ ih => exact .stay hhere (ih hrest)
  | back hhere _ ih => exact .back hhere (ih hrest)
  | enter hhere hname hsize hlookup hnode _ ih =>
    exact .enter hhere hname hsize hlookup hnode (ih hrest)
  | keep _ _ _ _ hlast =>
    -- a link is kept only at the end of a way that does not go through it
    cases hlast
  | jump hhere hname hsize hlookup _ _ ih =>
    have hall := ih hrest
    rw [List.append_assoc] at hall
    exact .jump hhere hname hsize hlookup (.inr rfl) hall

end

section

variable {root : Node} {path name : String} {above : Place} {entries : Entries}

theorem find?_of_trail {trail : Trail} (h : trailTo root path = .ok trail) :
    find? root path = .ok (trail.here root) := by
  rw [find?, h]
  rfl

theorem LeadsInto.checkPath_eq (h : LeadsInto root path above entries) :
    checkPath path = .ok () :=
  checkPath_eq_ok_iff.mpr ⟨h.noNul, h.ne_empty, h.size_lt⟩

theorem Path.steps_eq_append (path : String) :
    ∃ rest, Path.steps path = Path.names path ++ rest ∧ (rest = [] ∨ rest = ["."]) := by
  rw [Path.steps]
  split
  · exact ⟨["."], rfl, .inr rfl⟩
  · exact ⟨[], (List.append_nil _).symm, .inl rfl⟩

/-- A path leads where its names lead, with a slash behind them or without. -/
theorem exists_follows_of_find? {node : Node} (hfind : find? root path = .ok node) :
    ∃ after, checkPath path = .ok () ∧ Follows root true maxLinks [] (Path.names path) after ∧
      after.here root = node := by
  obtain ⟨trail, htrail, rfl⟩ := trail_of_find? hfind
  obtain ⟨hcheck, hfollows⟩ := trailTo_eq_ok_iff.mp htrail
  obtain ⟨rest, hsteps, hrest⟩ := Path.steps_eq_append path
  rw [hsteps] at hfollows
  obtain ⟨middle, fewer, hmiddle, hlast⟩ := hfollows.exists_middle
  refine ⟨middle, hcheck, hmiddle, ?_⟩
  rcases hrest with rfl | rfl
  · cases hlast
    rfl
  · have hstay := @Follows.leaveOut root fewer middle trail [] ["."] hlast
    cases hstay
    rfl

theorem find?_eq_here {after : Trail} {node : Node}
    (h : Follows root true maxLinks [] (Path.names path) after)
    (hfind : find? root path = .ok node) : node = after.here root := by
  obtain ⟨other, -, hother, rfl⟩ := exists_follows_of_find? hfind
  rw [hother.unique h]

/-- A path leads to the directory that its names lead to. -/
theorem find?_of_follows {after : Trail} (hcheck : checkPath path = .ok ())
    (h : Follows root true maxLinks [] (Path.names path) after)
    (hhere : after.here root = .directory entries) :
    find? root path = .ok (.directory entries) := by
  obtain ⟨rest, hsteps, hrest⟩ := Path.steps_eq_append path
  have hlast (fewer : Nat) : Follows root true fewer after rest after := by
    rcases hrest with rfl | rfl
    · exact .done
    · exact .stay hhere .done
  rw [find?_of_trail (trailTo_eq_ok_iff.mpr ⟨hcheck, hsteps ▸ h.append hlast⟩), hhere]

theorem Path.names_of_lastEntry (h : Path.lastEntry path = some name) :
    Path.names path = (Path.names path).dropLast ++ [name] ∧ IsEntryName name := by
  obtain ⟨hlast, hname⟩ := Option.filter_eq_some_iff.mp h
  exact ⟨(List.dropLast_append_getLast? _ hlast).symm, of_decide_eq_true hname⟩

/-- The names of a path lead to the entry of the last one, unless it is a link. -/
theorem LeadsInto.follows_entry {node : Node} (h : LeadsInto root path above entries)
    (hlast : Path.lastEntry path = some name) (hsize : name.utf8ByteSize ≤ maxNameSize)
    (hlookup : List.lookup name entries = some node) (hnode : ∀ target, node ≠ .link target) :
    ∃ before, Follows root true maxLinks [] (Path.names path) ((name, node) :: before) := by
  obtain ⟨before, hbefore, -, hhere⟩ := h.follows
  obtain ⟨hnames, hname⟩ := Path.names_of_lastEntry hlast
  refine ⟨before, ?_⟩
  rw [hnames]
  exact hbefore.append fun _ => .enter hhere hname hsize hlookup hnode .done

/-- Without a last name there is a directory already. -/
theorem LeadsInto.find?_of_no_entry (h : LeadsInto root path above entries)
    (hlast : Path.lastEntry path = none) : ∃ below, find? root path = .ok (.directory below) := by
  obtain ⟨before, hbefore, -, hhere⟩ := h.follows
  cases hname : (Path.names path).getLast? with
  | none =>
    rw [List.getLast?_eq_none_iff] at hname
    rw [hname] at hbefore
    exact ⟨entries, find?_of_follows h.checkPath_eq (hname ▸ hbefore) hhere⟩
  | some name =>
    have hnames := List.dropLast_append_getLast? _ hname
    have hword : name = "." ∨ name = ".." := by
      rw [lastEntry_of_getLast? hname] at hlast
      by_contra hentry
      rw [if_neg (by simpa using hentry)] at hlast
      cases hlast
    rcases hword with rfl | rfl
    · have hall := hbefore.append fun _ => .stay hhere .done
      rw [hnames] at hall
      exact ⟨entries, find?_of_follows h.checkPath_eq hall hhere⟩
    · have hall := hbefore.append fun _ => .back hhere .done
      obtain ⟨below, hbelow⟩ := (hbefore.sound trivial).here_tail hhere
      rw [hnames] at hall
      exact ⟨below, find?_of_follows h.checkPath_eq hall hbelow⟩

theorem LeadsInto.extend {larger : Node} (h : LeadsInto root path above entries)
    (hlarger : larger.Extends root) : ∃ entries', LeadsInto larger path above entries' := by
  obtain ⟨before, hbefore, hplace, hhere⟩ := h.follows
  have hstart : Trail.Sound larger [] := trivial
  obtain ⟨after, hafter, hsame⟩ := hbefore.extend hlarger trivial hstart rfl
  obtain ⟨entries', hentries, -⟩ := hlarger.exists_entries (hbefore.sound trivial)
    (hafter.sound trivial) hsame hhere
  exact ⟨entries', h.noNul, h.ne_empty, h.size_lt, after, hafter, hsame.trans hplace, hentries⟩

/-- What comes of making a directory: it is made, it is refused since the place is taken, or
something else is in the way. -/
theorem makeDirectory_cases (root : Node) (path : String) :
    (∃ above name, IsVacant root path above name ∧
      makeDirectory root path = .ok (root.put above name (.directory []))) ∨
    (IsTaken root path ∧ makeDirectory root path = .error .alreadyExists) ∨
    ∃ error, error ≠ .alreadyExists ∧ makeDirectory root path = .error error := by
  by_cases hvacant : ∃ above name, IsVacant root path above name
  · obtain ⟨above, name, hvacant⟩ := hvacant
    exact .inl ⟨above, name, hvacant, makeDirectory_of_isVacant hvacant⟩
  by_cases htaken : IsTaken root path
  · exact .inr (.inl ⟨htaken, makeDirectory_of_isTaken htaken⟩)
  · simp only [not_exists] at hvacant
    exact .inr (.inr (makeDirectory_of_neither hvacant htaken))

/-- A directory that was made is there, and it is empty. -/
theorem IsVacant.find?_put (h : IsVacant root path above name) :
    find? (root.put above name (.directory [])) path = .ok (.directory []) := by
  obtain ⟨entries, hleads, hfree⟩ := h.free
  obtain ⟨entries', hleads'⟩ := hleads.extend (Node.extends_put hleads.get? hfree)
  -- the directory above is a new node, the old one with the entry put in
  have hput := @Node.get?_put root above name entries hleads.get? (.directory []) []
  rw [List.append_nil, hleads'.get?] at hput
  cases hput
  have hlookup : List.lookup name (entries.put name (.directory [])) = some (.directory []) := by
    rw [Node.lookup_put hfree, if_pos rfl]
  obtain ⟨before, hbefore⟩ := hleads'.follows_entry h.lastEntry h.size_le hlookup (by simp)
  exact find?_of_follows hleads'.checkPath_eq hbefore rfl

end

end Conductor.Files
