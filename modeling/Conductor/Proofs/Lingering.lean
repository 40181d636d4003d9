import Conductor.Proofs.Directories
import Conductor.Proofs.Paths

/-!
# Paths that linger

A path may stay in a directory as often as it likes before it goes on. It leads where the directory
is (`find?_lingering`), but all that stands there has a longer path by it, which the system may
refuse.
-/

namespace Conductor

/-- A way that stays where it is that many times. -/
def lingering : Nat → String
  | 0 => ""
  | n + 1 => "./" ++ lingering n

def longName (size : Nat) : String := String.ofList (List.replicate size 'b')

theorem utf8ByteSize_lingering (n : Nat) : (lingering n).utf8ByteSize = 2 * n := by
  induction n with
  | zero => rfl
  | succ n ih =>
    have hstep : "./".utf8ByteSize = 2 := by decide
    rw [lingering, String.utf8ByteSize_append, ih, hstep]
    omega

theorem noNul_lingering (n : Nat) : '\x00' ∉ (lingering n).toList := by
  induction n with
  | zero => simp [lingering]
  | succ n ih => simpa [lingering] using ih

theorem names_lingering (n : Nat) (rest : String) :
    Files.Path.names (lingering n ++ rest) = List.replicate n "." ++ Files.Path.names rest := by
  induction n with
  | zero => simp [lingering]
  | succ n ih =>
    have hsplit : lingering (n + 1) ++ rest = "." ++ "/" ++ (lingering n ++ rest) := by
      rw [lingering, String.append_assoc]
      rfl
    have hpoint : Files.Path.names "." = ["."] := by decide
    rw [hsplit, Files.Path.names_append, ih, hpoint]
    rfl

theorem utf8ByteSize_longName (size : Nat) : (longName size).utf8ByteSize = size := by
  have hb : 'b'.utf8Size = 1 := by decide
  rw [longName]
  induction size with
  | zero => rfl
  | succ size ih =>
    rw [List.replicate_succ, String.ofList_cons, String.utf8ByteSize_append,
      String.utf8ByteSize_singleton, ih, hb]
    omega

theorem not_mem_longName {c : Char} (h : c ≠ 'b') (size : Nat) : c ∉ (longName size).toList := by
  rw [longName, String.toList_ofList]
  exact fun hmem => h (List.eq_of_mem_replicate hmem)

/-- Staying in a directory leads nowhere else. -/
theorem follows_lingering {root : Files.Node} {throughLast : Bool} {links : Nat}
    {trail : Files.Trail} {entries : Files.Entries} (h : trail.here root = .directory entries)
    (n : Nat) : Files.Follows root throughLast links trail (List.replicate n ".") trail := by
  induction n with
  | zero => exact .done
  | succ n ih => exact .stay h ih

theorem utf8ByteSize_lingeringPath (n : Nat) : ("/p/" ++ lingering n).utf8ByteSize = 2 * n + 3 := by
  have hbase : "/p/".utf8ByteSize = 3 := by decide
  rw [String.utf8ByteSize_append, utf8ByteSize_lingering, hbase, Nat.add_comm]

theorem exists_steps_lingeringPath (n : Nat) :
    ∃ k, Files.Path.steps ("/p/" ++ lingering n) = "p" :: List.replicate k "." := by
  have hnames : Files.Path.names ("/p/" ++ lingering n) = "p" :: List.replicate n "." := by
    have hsplit : "/p/" ++ lingering n = "/p" ++ "/" ++ (lingering n ++ "") := by
      simp
    have hbase : Files.Path.names "/p" = ["p"] := by decide
    have hnone : Files.Path.names "" = [] := by decide
    rw [hsplit, Files.Path.names_append, names_lingering, hbase, hnone, List.append_nil]
    rfl
  rw [Files.Path.steps, hnames]
  split
  · exact ⟨n + 1, by rw [List.replicate_succ']; rfl⟩
  · exact ⟨n, rfl⟩

section

variable {n : Nat} {entries : Files.Entries}

theorem follows_lingeringPath {throughLast : Bool} :
    Files.Follows (.directory [("p", .directory entries)]) throughLast Files.maxLinks []
      (Files.Path.steps ("/p/" ++ lingering n)) [("p", .directory entries)] := by
  obtain ⟨k, hsteps⟩ := exists_steps_lingeringPath n
  rw [hsteps]
  exact .enter rfl (by decide) (by decide) rfl (by simp) (follows_lingering rfl k)

variable (hsize : 2 * n + 3 < Files.pathSizeLimit)

include hsize

theorem checkPath_lingeringPath : Files.checkPath ("/p/" ++ lingering n) = .ok () := by
  refine Files.checkPath_eq_ok_iff.mpr ⟨?_, ?_, ?_⟩
  · simpa using noNul_lingering n
  · simp
  · rwa [utf8ByteSize_lingeringPath]

/-- What is found after staying in a directory. -/
theorem find?_lingering :
    Files.find? (.directory [("p", .directory entries)]) ("/p/" ++ lingering n) =
      .ok (.directory entries) := by
  rw [Files.find?, Files.trailTo_eq_ok_iff.mpr
    ⟨checkPath_lingeringPath hsize, follows_lingeringPath⟩]
  rfl

theorem findSelf?_lingering :
    Files.findSelf? (.directory [("p", .directory entries)]) ("/p/" ++ lingering n) =
      .ok (.directory entries) :=
  Files.findSelf?_of_trail (Files.trailToSelf_eq_ok_iff.mpr
    ⟨checkPath_lingeringPath hsize, follows_lingeringPath⟩)

end

end Conductor
