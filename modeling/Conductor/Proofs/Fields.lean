import Conductor.Proofs.Documents
import Conductor.Settings.Decode
import Mathlib.Data.List.Nodup

/-!
# Setting fields in any order

A table gives fields in the order of its keys, an array in the order of the fields. If no field
looks at a part that another one sets, both come to setting the given fields in their own order
(`setEntries_eq_ok_iff`, `setElements_eq`).
-/

namespace Conductor

theorem except_bind_eq_ok_iff {ε α β : Type} {x : Except ε α} {f : α → Except ε β} {b : β} :
    (x >>= f) = .ok b ↔ ∃ a, x = .ok a ∧ f a = .ok b := by
  cases x with
  | error e =>
    constructor
    · intro h
      cases h
    · rintro ⟨_, h, _⟩
      cases h
  | ok a =>
    constructor
    · intro h
      exact ⟨a, rfl, h⟩
    · rintro ⟨_, h, hf⟩
      cases h
      exact hf

/-- What has a fresh key differs in its key from all items. -/
theorem ne_of_fresh {ι κ : Type} {key : ι → κ} {items : List ι} {fresh item : ι}
    (h : key fresh ∉ items.map key) (hitem : item ∈ items) : key item ≠ key fresh := by
  intro heq
  exact h (List.mem_map.mpr ⟨item, hitem, heq⟩)

namespace Decode

variable {σ α β : Type}

/-- The order of two changes makes no difference if they succeed. -/
def Commutes (a b : σ → Except Fault σ) : Prop :=
  ∀ start result, (a start >>= b) = .ok result ↔ (b start >>= a) = .ok result

theorem Commutes.symm {a b : σ → Except Fault σ} (h : Commutes a b) : Commutes b a :=
  fun start result => (h start result).symm

theorem commutes_ok (b : σ → Except Fault σ) : Commutes (fun state => .ok state) b := by
  intro start result
  simp only [except_bind_eq_ok_iff]
  constructor
  · rintro ⟨state, hstate, hb⟩
    cases hstate
    exact ⟨result, hb, rfl⟩
  · rintro ⟨state, hb, hstate⟩
    cases hstate
    exact ⟨start, rfl, hb⟩

theorem commutes_error (fault : Fault) (b : σ → Except Fault σ) :
    Commutes (fun _ => .error fault) b := by
  intro start result
  simp only [except_bind_eq_ok_iff]
  constructor
  · rintro ⟨_, h, _⟩
    cases h
  · rintro ⟨_, _, h⟩
    cases h

theorem Commutes.bind {a b c : σ → Except Fault σ} (ha : Commutes a c) (hb : Commutes b c) :
    Commutes (fun state => a state >>= b) c := by
  intro start result
  calc ((a start >>= b) >>= c) = .ok result
      ↔ ∃ middle, a start = .ok middle ∧ (b middle >>= c) = .ok result := by
        rw [bind_assoc, except_bind_eq_ok_iff]
    _ ↔ ∃ middle, a start = .ok middle ∧ (c middle >>= b) = .ok result := by
        simp only [hb _ result]
    _ ↔ ∃ middle, (a start >>= c) = .ok middle ∧ b middle = .ok result := by
        rw [← except_bind_eq_ok_iff, ← except_bind_eq_ok_iff, bind_assoc]
    _ ↔ ∃ middle, (c start >>= a) = .ok middle ∧ b middle = .ok result := by
        simp only [ha start]
    _ ↔ (c start >>= fun state => a state >>= b) = .ok result := by
        rw [← except_bind_eq_ok_iff, bind_assoc]

theorem commutes_foldlM {ι : Type} {step : σ → ι → Except Fault σ} {b : σ → Except Fault σ}
    {items : List ι} (h : ∀ item ∈ items, Commutes (fun state => step state item) b) :
    Commutes (fun state => items.foldlM step state) b := by
  induction items with
  | nil => exact commutes_ok b
  | cons item items ih =>
    simp only [List.foldlM_cons]
    exact (h item (by simp)).bind (ih fun other hmem => h other (List.mem_cons_of_mem _ hmem))

/-- Two fields that set different parts of a state. -/
theorem commutes_put {read : Except Fault α} {other : Except Fault β} {put : α → σ → σ}
    {putOther : β → σ → σ} (h : ∀ a b state, put a (putOther b state) = putOther b (put a state)) :
    Commutes (fun state => read >>= fun a => pure (put a state))
      (fun state => other >>= fun b => pure (putOther b state)) := by
  intro start result
  cases read with
  | error fault => exact commutes_error fault _ start result
  | ok a =>
    cases other with
    | error fault =>
      exact (commutes_error fault fun state => pure (put a state)).symm start result
    | ok b =>
      change Except.ok (putOther b (put a start)) = .ok result ↔
        Except.ok (put a (putOther b start)) = .ok result
      rw [h]

/-- Fields of different names may be set in either order. -/
def Independent (fields : List (Field σ)) : Prop :=
  ∀ f ∈ fields, ∀ g ∈ fields, f.name ≠ g.name → ∀ v w, Commutes (f.set v) (g.set w)

theorem commutes_group {wanted : String} {fields : List (Field σ)} {b : σ → Except Fault σ}
    (h : ∀ field ∈ fields, ∀ value, Commutes (field.set value) b) (value : Toml.Value) :
    Commutes (group wanted fields value) b := by
  have hentries (entries : Toml.Table) :
      Commutes (fun start => setEntries fields entries start) b := by
    refine commutes_foldlM fun entry _ => ?_
    cases hfind : fields.find? (·.name = entry.1) with
    | none => exact commutes_error _ b
    | some field => exact h field (List.mem_of_find?_eq_some hfind) entry.2
  cases value with
  | table entries => exact hentries entries
  | dateTime written => exact hentries [(dateKey, .string written)]
  | array elements =>
    refine commutes_foldlM fun pair hmem => ?_
    exact h pair.1 (List.of_mem_zip hmem).1 pair.2
  | _ => exact commutes_error _ b

/-- What a field makes of a state if it may be left out. -/
def Field.apply (field : Field σ) : Option Toml.Value → σ → Except Fault σ
  | some value => field.set value
  | none => .ok

def setAll (fields : List (Field σ)) (given : String → Option Toml.Value) (start : σ) :
    Except Fault σ :=
  fields.foldlM (fun state field => field.apply (given field.name) state) start

theorem setAll_cons (field : Field σ) (fields : List (Field σ))
    (given : String → Option Toml.Value) (start : σ) :
    setAll (field :: fields) given start =
      field.apply (given field.name) start >>= setAll fields given :=
  List.foldlM_cons ..

theorem setAll_congr {fields : List (Field σ)} {given other : String → Option Toml.Value}
    (h : ∀ field ∈ fields, given field.name = other field.name) (start : σ) :
    setAll fields given start = setAll fields other start := by
  induction fields generalizing start with
  | nil => rfl
  | cons field fields ih =>
    rw [setAll_cons, setAll_cons, h field (by simp)]
    congr 1
    funext state
    exact ih (fun later hmem => h later (List.mem_cons_of_mem _ hmem)) state

theorem setAll_none (fields : List (Field σ)) (start : σ) :
    setAll fields (fun _ => none) start = .ok start := by
  induction fields with
  | nil => rfl
  | cons field fields ih => rw [setAll_cons]; exact ih

theorem commutes_apply {field : Field σ} {b : σ → Except Fault σ}
    (h : ∀ value, Commutes (field.set value) b) (given : Option Toml.Value) :
    Commutes (field.apply given) b := by
  cases given with
  | none => exact commutes_ok b
  | some value => exact h value

/-- A field that is given in addition may be set before all others. -/
theorem setAll_of_given {fields : List (Field σ)} (hnodup : (fields.map (·.name)).Nodup)
    (hfields : Independent fields) {field : Field σ} (hmem : field ∈ fields) {value : Toml.Value}
    (given more : String → Option Toml.Value) (hnone : given field.name = none)
    (hsome : more field.name = some value)
    (hsame : ∀ name, name ≠ field.name → more name = given name) (start result : σ) :
    setAll fields more start = .ok result ↔
      (field.set value start >>= setAll fields given) = .ok result := by
  induction fields generalizing start with
  | nil => cases hmem
  | cons first fields ih =>
    obtain ⟨hfirst, hnodup⟩ := List.nodup_cons.mp hnodup
    have hrest : Independent fields := fun f hf g hg =>
      hfields f (List.mem_cons_of_mem _ hf) g (List.mem_cons_of_mem _ hg)
    have hcons : setAll (first :: fields) given = fun state =>
        first.apply (given first.name) state >>= setAll fields given :=
      funext fun state => setAll_cons first fields given state
    rw [setAll_cons, hcons]
    rcases List.mem_cons.mp hmem with rfl | hmem
    · have hlater : setAll fields more = setAll fields given := by
        funext state
        exact setAll_congr (fun later hlater => hsame later.name (ne_of_fresh hfirst hlater)) state
      rw [hsome, hnone, hlater]
      rfl
    · -- The field passes the first one, and then the others by induction.
      have hne : first.name ≠ field.name := (ne_of_fresh hfirst hmem).symm
      have hcomm : Commutes (first.apply (given first.name)) (field.set value) :=
        commutes_apply (fun other => hfields first (by simp) field (List.mem_cons_of_mem _ hmem)
          hne other value) _
      rw [hsame first.name hne]
      calc (first.apply (given first.name) start >>= setAll fields more) = .ok result
          ↔ ∃ state, first.apply (given first.name) start = .ok state ∧
              (field.set value state >>= setAll fields given) = .ok result := by
            rw [except_bind_eq_ok_iff]
            simp only [ih hnodup hrest hmem]
        _ ↔ ∃ state, (first.apply (given first.name) start >>= field.set value) = .ok state ∧
              setAll fields given state = .ok result := by
            rw [← except_bind_eq_ok_iff, ← except_bind_eq_ok_iff, bind_assoc]
        _ ↔ ∃ state, (field.set value start >>= first.apply (given first.name)) = .ok state ∧
              setAll fields given state = .ok result := by
            simp only [hcomm start]
        _ ↔ (field.set value start >>= fun state =>
              first.apply (given first.name) state >>= setAll fields given) = .ok result := by
            rw [← except_bind_eq_ok_iff, bind_assoc]

/-- The order in which the entries of a table stand makes no difference. -/
theorem setEntries_eq_ok_iff {fields : List (Field σ)} (hnodup : (fields.map (·.name)).Nodup)
    (hfields : Independent fields) {entries : Toml.Table} (hkeys : (entries.map (·.1)).Nodup)
    (start result : σ) :
    setEntries fields entries start = .ok result ↔
      (∀ entry ∈ entries, entry.1 ∈ fields.map (·.name)) ∧
        setAll fields (fun name => List.lookup name entries) start = .ok result := by
  induction entries generalizing start with
  | nil =>
    have hnone : setAll fields (fun name => List.lookup name ([] : Toml.Table)) start =
        .ok start := setAll_none fields start
    rw [hnone]
    simp [setEntries, pure, Except.pure]
  | cons entry entries ih =>
    obtain ⟨key, value⟩ := entry
    obtain ⟨hkey, hrest⟩ := List.nodup_cons.mp hkeys
    rw [setEntries, List.foldlM_cons]
    cases hfind : fields.find? (·.name = key) with
    | none =>
      have hunknown : key ∉ fields.map (·.name) := by
        intro hmem
        obtain ⟨field, hfield, rfl⟩ := List.mem_map.mp hmem
        simpa using List.find?_eq_none.mp hfind field hfield
      constructor
      · intro h
        cases h
      · rintro ⟨hknown, -⟩
        exact absurd (hknown (key, value) (by simp)) hunknown
    | some field =>
      have hmem := List.mem_of_find?_eq_some hfind
      obtain rfl : field.name = key := by simpa using List.find?_some hfind
      have hnone : List.lookup field.name entries = none :=
        Toml.lookup_eq_none_iff_not_mem.mpr hkey
      have hgiven := setAll_of_given hnodup hfields hmem (fun name => List.lookup name entries)
        (fun name => List.lookup name ((field.name, value) :: entries)) hnone
        List.lookup_cons_self
        (fun name hne => by simp [List.lookup_cons, beq_false_of_ne hne]) start result
      rw [hgiven, except_bind_eq_ok_iff, except_bind_eq_ok_iff]
      have hname : field.name ∈ fields.map (·.name) := List.mem_map_of_mem hmem
      simp only [List.forall_mem_cons, hname, true_and]
      constructor
      · rintro ⟨state, hset, hlater⟩
        obtain ⟨hknown, hall⟩ := (ih hrest state).mp hlater
        exact ⟨hknown, state, hset, hall⟩
      · rintro ⟨hknown, state, hset, hall⟩
        exact ⟨state, hset, (ih hrest state).mpr ⟨hknown, hall⟩⟩

/-- Fields that are given by position count as given by name. -/
theorem setElements_eq {fields : List (Field σ)} (hnodup : (fields.map (·.name)).Nodup)
    (elements : List Toml.Value) (start : σ) :
    setElements fields elements start =
      setAll fields (fun name => List.lookup name ((fields.map (·.name)).zip elements)) start := by
  induction fields generalizing elements start with
  | nil => rfl
  | cons field fields ih =>
    obtain ⟨hfirst, hnodup⟩ := List.nodup_cons.mp hnodup
    cases elements with
    | nil =>
      simp only [List.zip_nil_right, List.lookup_nil, setAll_none]
      rfl
    | cons element elements =>
      rw [setAll_cons, List.map_cons, List.zip_cons_cons, List.lookup_cons_self, setElements,
        List.zip_cons_cons, List.foldlM_cons]
      refine congrArg (field.set element start >>= ·) (funext fun state => ?_)
      refine (ih hnodup elements state).trans (setAll_congr (fun later hlater => ?_) state)
      have hne : later.name ≠ field.name := ne_of_fresh hfirst hlater
      rw [List.lookup_cons, beq_false_of_ne hne]

end Decode

end Conductor
