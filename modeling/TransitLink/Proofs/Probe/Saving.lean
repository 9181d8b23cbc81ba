import TransitLink.Proofs.Json.Printing
import TransitLink.Proofs.Probe.Course
import TransitLink.Proofs.Probe.FileTree

/-!
# Files as they are saved

* `Stored` : the octets of a file, given what it is to hold. `stored_octets` : those of a report are such octets.
* `FileTree.Saved` : files are written below a directory, one after the other.
* `Saved.holds_last` : in the end, every name holds what was written last under it.
* `Saved.node?_eq_or` : nothing else changes in the tree.
* `Peer.onDisk` : a peer whose files are kept below a directory of a tree. `Moves.saved` : its files are saved there.
-/

namespace TransitLink.Probe

set_option autoImplicit false

/-! ## Octets -/

/-- The octets of a file: octets are kept as they are, and a value is written under the time, with a line feed behind. -/
inductive Stored (timestamp : String) : Content → Bytes → Prop where
  | octets (bs : Bytes) : Stored timestamp (.octets bs) bs
  | document {t : Bytes} {data : Json} : Json.Writes t (.obj [("timestamp", .str timestamp), ("data", data)]) →
      Stored timestamp (.document data) (t ++ [0x0a])

theorem stored_octets (timestamp : String) (content : Content) :
    Stored timestamp content (Report.octets timestamp content) := by
  cases content with
  | document data =>
    rw [Report.octets, Report.document, Json.ofText_append]
    exact .document (Json.writes_pretty _)
  | octets bs => exact .octets bs

/-- The file `w` is what is written for `f` at one of these times. -/
def WrittenFor (stamps : Nat → String) (f : String × Content) (w : String × Bytes) : Prop :=
  ∃ k, w = (f.1, Report.octets (stamps k) f.2)

section
variable {stamps : Nat → String} {fs : List (String × Content)} {written : List (String × Bytes)}

theorem names_of_written (h : List.Forall₂ (WrittenFor stamps) fs written) :
    written.map Prod.fst = fs.map Prod.fst := by
  induction h with
  | nil => rfl
  | cons h _ ih =>
    obtain ⟨k, rfl⟩ := h
    rw [List.map_cons, List.map_cons, ih]

theorem exists_of_mem_written (h : List.Forall₂ (WrittenFor stamps) fs written) {w : String × Bytes} (hw : w ∈ written) :
    ∃ f ∈ fs, WrittenFor stamps f w := by
  induction h with
  | nil => cases hw
  | @cons f _ _ _ h _ ih =>
    rcases List.mem_cons.mp hw with rfl | hw
    · exact ⟨f, List.mem_cons_self, h⟩
    · obtain ⟨f, hf, h⟩ := ih hw
      exact ⟨f, List.mem_cons_of_mem _ hf, h⟩

end

/-! ## Trees -/

namespace FileTree

/-- Files are written below a directory, one after the other. -/
inductive Saved (dir : String) : FileTree → List (String × Bytes) → FileTree → Prop where
  | nil (t : FileTree) : Saved dir t [] t
  | cons {t t' t'' : FileTree} {f : String × Bytes} {fs : List (String × Bytes)} :
      t.Takes dir f.1 f.2 t' → Saved dir t' fs t'' → Saved dir t (f :: fs) t''

variable {dir name : String} {t t' : FileTree} {fs : List (String × Bytes)}

/-- What stands under a name stays as long as nothing else is written under it. -/
theorem Saved.holds (h : Saved dir t fs t') (hname : Route.IsName name) (hlater : name ∉ fs.map Prod.fst) {n : Node}
    (hholds : t.Holds dir name n) : t'.Holds dir name n := by
  induction h with
  | nil t => exact hholds
  | cons htakes _ ih =>
    rw [List.map_cons, List.mem_cons, not_or] at hlater
    exact ih hlater.2 (htakes.holds_other hname hlater.1 hholds)

/-- In the end, every name holds what was written last under it, unless it is that of a device. -/
theorem Saved.holds_last {before after : List (String × Bytes)} {bs : Bytes}
    (h : Saved dir t (before ++ (name, bs) :: after) t') (hname : Route.IsName name)
    (hlater : name ∉ after.map Prod.fst) : t'.Holds dir name (.file bs) ∨ t'.Holds dir name .sink := by
  induction before generalizing t with
  | nil =>
    obtain _ | ⟨htakes, hsaved⟩ := h
    exact htakes.holds.imp (hsaved.holds hname hlater) (hsaved.holds hname hlater)
  | cons f before ih =>
    obtain _ | ⟨-, hsaved⟩ := h
    exact ih hsaved

/-- Nothing changes in a tree but what stands under the name of a file in the directory: the file stands there then. -/
theorem Saved.node?_eq_or (h : Saved dir t fs t') (w : Path) : t'.node? w = t.node? w ∨
    ∃ d p f, Route.ofText dir = .ok d ∧ t.Inside d.fromRoot d.steps p ∧ f ∈ fs ∧ w = p ++ [f.1] ∧
      t'.node? w = some (.file f.2) := by
  induction h with
  | nil t => exact .inl rfl
  | @cons t t' _ f fs htakes _ ih =>
    obtain ⟨d, p, hd, hp, hstays, hplace⟩ := htakes.inside
    rcases ih with hsame | ⟨d', p', later, hd', hp', hf, hw, hnode⟩
    · rw [hsame]
      exact hplace w |>.imp_right fun ⟨hw, hnode⟩ => ⟨d, p, f, hd, hp, List.mem_cons_self, hw, hnode⟩
    · -- the directory of a later file is the one of this file, so it was there before
      obtain rfl : d = d' := Except.ok.inj (hd.symm.trans hd')
      obtain rfl : p = p' := hstays.unique hp'
      exact .inr ⟨d, p, later, hd, hp, List.mem_cons_of_mem _ hf, hw, hnode⟩

end FileTree

/-! ## Peers -/

section
variable (greeting : Except Failure Unit) (answers : Nat → Except Failure Response) (dir : String) (stamps : Nat → String)

/-- A peer whose files are kept below a directory of a tree. They are numbered, and each is written at a time. -/
def Peer.onDisk : Peer (FileTree × Nat) where
  greeting := greeting
  answers := answers
  write name content place :=
    let (written, tree) := Report.write FileTree.disk dir name (Report.octets (stamps place.2) content) place.1
    (written.map fun _ => (), (tree, place.2 + 1))

namespace Peer
variable {greeting answers dir stamps} {place place' : FileTree × Nat} {name : String} {content : Content}

theorem write_eq {written : Except Trouble String} {tree : FileTree}
    (h : Report.write FileTree.disk dir name (Report.octets (stamps place.2) content) place.1 = (written, tree)) :
    (onDisk greeting answers dir stamps).write name content place = (written.map fun _ => (), (tree, place.2 + 1)) := by
  unfold onDisk
  dsimp only
  rw [h]

theorem takes_of_write_ok (hname : Route.IsName name)
    (h : (onDisk greeting answers dir stamps).write name content place = (.ok (), place')) :
    place.1.Takes dir name (Report.octets (stamps place.2) content) place'.1 := by
  rcases hwritten : Report.write FileTree.disk dir name (Report.octets (stamps place.2) content) place.1 with ⟨t | path, tree⟩
  · rw [write_eq hwritten] at h
    cases h
  · rw [write_eq hwritten] at h
    cases h
    exact FileTree.takes_of_write hname hwritten

theorem eq_of_write_error {t : Trouble}
    (h : (onDisk greeting answers dir stamps).write name content place = (.error t, place')) : place'.1 = place.1 := by
  rcases hwritten : Report.write FileTree.disk dir name (Report.octets (stamps place.2) content) place.1 with ⟨t | path, tree⟩
  · rw [write_eq hwritten] at h
    cases h
    exact FileTree.eq_of_write_error hwritten
  · rw [write_eq hwritten] at h
    cases h

variable {log : List Happening}

/-- The files that are not refused are saved, each as it is written at some time. -/
theorem Moves.saved (h : (onDisk greeting answers dir stamps).Moves place log place')
    (hnames : ∀ f ∈ files log, Route.IsName f.1) :
    ∃ written, List.Forall₂ (WrittenFor stamps) (files log) written ∧ place.1.Saved dir written place'.1 := by
  induction h with
  | nil s => exact ⟨[], .nil, .nil _⟩
  | @wrote s t u name content log hwrite _ ih =>
    have hfiles : files (.left (.file name content) :: log) = (name, content) :: files log := rfl
    rw [hfiles, List.forall_mem_cons] at hnames
    obtain ⟨written, hwritten, hsaved⟩ := ih hnames.2
    rw [hfiles]
    exact ⟨_, .cons ⟨s.2, rfl⟩ hwritten, .cons (takes_of_write_ok hnames.1 hwrite) hsaved⟩
  | refused hwrite _ ih =>
    rw [← eq_of_write_error hwrite]
    exact ih hnames
  | warned _ ih | asked _ ih | dialled _ ih | closed _ ih => exact ih hnames

end Peer
end
end TransitLink.Probe
