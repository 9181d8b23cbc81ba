import TransitLink.Probe.FileTree
import TransitLink.Probe.Report
import TransitLink.Proofs.Outcome

/-!
# Files below a directory

* `Route.IsName` : a text that is one step. `Route.of_join` : where such a step is taken from.
* `FileTree.Inside` : the path of the directory in which they are taken.
* `FileTree.Gains` : a file comes to stand somewhere, and nothing else changes. `Gains.inside` : directories stay.
* `FileTree.Holds` : what stands under a name below a directory.
* `FileTree.Takes` : what writing under such a name does. `takes_of_write` : writing a file of a report does that.
* `FileTree.Takes.holds_other` : what stands under other names stays. `Takes.inside` : so does the directory.
-/

namespace TransitLink.Probe

set_option autoImplicit false

/-! ## Routes -/

namespace Route

/-- A text that is one step on a route, and the name of what it leads to. -/
def IsName (name : String) : Prop := '/' ∉ name.toList ∧ name ∉ ["", ".", ".."]

theorem splitFrom_of_notMem {cs : List Char} (h : '/' ∉ cs) (part : List Char) :
    splitFrom part cs = [String.ofList (part.reverse ++ cs)] := by
  induction cs generalizing part with
  | nil => rw [splitFrom, List.append_nil]
  | cons c cs ih =>
    rw [List.mem_cons, not_or] at h
    rw [splitFrom, if_neg (Ne.symm h.1), ih h.2, List.reverse_cons, List.append_assoc, List.singleton_append]

theorem splitFrom_append (part front cs : List Char) :
    splitFrom part (front ++ '/' :: cs) = splitFrom part front ++ splitFrom [] cs := by
  induction front generalizing part with
  | nil => rfl
  | cons c front ih =>
    rw [List.cons_append, splitFrom, splitFrom]
    split
    · rw [ih, List.cons_append]
    · exact ih _

/-- What a directory adds in front of names. -/
def base (dir : String) : List Char :=
  if dir = "" ∨ dir.toList.getLast? = some '/' then dir.toList else dir.toList ++ ['/']

theorem toList_join {name : String} (h : IsName name) (dir : String) :
    (join dir name).toList = base dir ++ name.toList := by
  have hhead : name.toList.head? ≠ some '/' := fun hhead => h.1 (List.mem_of_mem_head? hhead)
  unfold join base
  rw [if_neg hhead]
  split
  · exact String.toList_append
  · rw [String.toList_append, String.toList_append]
    rfl

theorem step_of_isName {name : String} (h : IsName name) : Step.ofText? name = some (.down name) := by
  obtain ⟨-, hname⟩ := h
  simp only [List.mem_cons, List.not_mem_nil, or_false, not_or] at hname
  rw [Step.ofText?, if_neg hname.1, if_neg hname.2.1, if_neg hname.2.2]

theorem ofText_eq_ok_iff {path : String} {r : Route} : ofText path = .ok r ↔
    (Char.ofNat 0 ∉ path.toList ∧ (Bytes.ofText path).length ≤ maxLength) ∧
      r = ⟨path.toList.head? = some '/', (splitFrom [] path.toList).filterMap Step.ofText?,
        path.toList.getLast? = some '/'⟩ := by
  unfold ofText
  dsimp only
  split
  · rename_i hnul
    exact iff_of_false nofun fun h => h.1.1 (List.contains_iff_mem.mp hnul)
  · rename_i hnul
    have hfree : Char.ofNat 0 ∉ path.toList := fun h => hnul (List.contains_iff_mem.mpr h)
    split
    · rename_i hlong
      exact iff_of_false nofun fun h => Nat.not_le.mpr hlong h.1.2
    · rename_i hshort
      rw [and_iff_right ⟨hfree, Nat.not_lt.mp hshort⟩, Except.ok.injEq, eq_comm]

theorem length_ofText_le {front path : String} (h : front.toList <+: path.toList) :
    (Bytes.ofText front).length ≤ (Bytes.ofText path).length := by
  obtain ⟨rest, hrest⟩ := h
  rw [← String.ofList_toList (s := path), ← String.ofList_toList (s := front), ← hrest, Bytes.ofText_ofList,
    Bytes.ofText_ofList, List.flatMap_append, List.length_append]
  exact Nat.le_add_right _ _

/-- What a directory adds in front of names leads where the directory leads. -/
theorem steps_base (dir : String) (cs : List Char) : (splitFrom [] (base dir ++ cs)).filterMap Step.ofText? =
    (splitFrom [] dir.toList).filterMap Step.ofText? ++ (splitFrom [] cs).filterMap Step.ofText? := by
  have hend : (splitFrom [] []).filterMap Step.ofText? = [] := rfl
  unfold base
  split
  · rename_i h
    rcases h with rfl | h
    · rfl
    · obtain ⟨front, hfront⟩ := List.getLast?_eq_some_iff.mp h
      rw [hfront, List.append_assoc, List.singleton_append, splitFrom_append, splitFrom_append, List.filterMap_append,
        List.filterMap_append, hend, List.append_nil]
  · rw [List.append_assoc, List.singleton_append, splitFrom_append, List.filterMap_append]

theorem prefix_base (dir : String) : dir.toList <+: base dir := by
  unfold base
  split
  · exact List.prefix_rfl
  · exact List.prefix_append _ _

/-- The route to a name below a directory is the directory's with one step more. -/
theorem of_join {dir name : String} (hname : IsName name) {r : Route} (h : ofText (join dir name) = .ok r) :
    ∃ d, ofText dir = .ok d ∧ r = ⟨d.fromRoot, d.steps ++ [.down name], false⟩ := by
  obtain ⟨⟨hnul, hlength⟩, rfl⟩ := ofText_eq_ok_iff.mp h
  have hfront : dir.toList <+: (join dir name).toList := by
    rw [toList_join hname]
    exact (prefix_base dir).trans (List.prefix_append _ _)
  refine ⟨_, ofText_eq_ok_iff.mpr ⟨⟨fun h => hnul (hfront.subset h), ?_⟩, rfl⟩, ?_⟩
  · exact Nat.le_trans (length_ofText_le hfront) hlength
  rw [toList_join hname, Route.mk.injEq]
  refine ⟨decide_eq_decide.mpr ?_, ?_, decide_eq_false fun hlast => ?_⟩
  · cases hdir : dir.toList with
    | nil =>
      have hempty : base dir = [] := by
        rw [base, if_pos (.inl (String.toList_eq_nil_iff.mp hdir)), hdir]
      rw [hempty, List.nil_append]
      exact iff_of_false (fun hhead => hname.1 (List.mem_of_mem_head? hhead)) nofun
    | cons c cs =>
      obtain ⟨rest, hrest⟩ := prefix_base dir
      rw [← hrest, hdir]
      rfl
  · rw [steps_base, splitFrom_of_notMem hname.1, List.reverse_nil, List.nil_append, String.ofList_toList,
      List.filterMap_cons_some (step_of_isName hname), List.filterMap_nil]
  · have hne : name.toList ≠ [] := fun hnil => hname.2 (by simp [String.toList_eq_nil_iff.mp hnil])
    rw [List.getLast?_append, List.getLast?_eq_some_getLast hne, Option.some_or, Option.some.injEq] at hlast
    exact hname.1 (hlast ▸ List.getLast_mem hne)

end Route

/-! ## Directories -/

namespace FileTree

def origin (t : FileTree) (fromRoot : Bool) : Path := if fromRoot then [] else t.here

/-- A directory stands at the end of some steps, at this path. -/
structure Inside (t : FileTree) (fromRoot : Bool) (steps : List Step) (p : Path) : Prop where
  walk : t.walk (t.origin fromRoot) steps = .ok p
  directory : t.node? p = some .directory

variable {t : FileTree} {p : Path}

theorem Inside.unique {fromRoot : Bool} {steps : List Step} {q : Path} (hp : t.Inside fromRoot steps p)
    (hq : t.Inside fromRoot steps q) : p = q :=
  Except.ok.inj (hp.walk.symm.trans hq.walk)

theorem node?_put {w : Path} (hw : w ≠ []) (t : FileTree) (n : Node) (v : Path) :
    (t.put w n).node? v = if v = w then some n else t.node? v := by
  by_cases hv : v = w
  · have hnone : ((t.entries.filter fun e => e.1 ≠ w).find? fun e => e.1 = w) = none := by
      simp [List.find?_eq_none]
    rw [hv, node?, put, if_neg hw, if_pos rfl, List.find?_append, hnone]
    simp
  · have hsame : ((t.entries.filter fun e => e.1 ≠ w).find? fun e => e.1 = v) = t.entries.find? fun e => e.1 = v := by
      rw [List.find?_filter]
      congr 1
      funext e
      by_cases he : e.1 = v <;> simp [he, hv]
    rw [node?, node?, put, if_neg hv, List.find?_append, hsame, List.find?_singleton]
    simp [Ne.symm hv]

theorem requireDirectory_eq_ok_iff {u : Unit} : t.requireDirectory p = .ok u ↔ t.node? p = some .directory := by
  unfold requireDirectory
  cases t.node? p with
  | none => simp
  | some n => cases n <;> simp

theorem lookUp_eq_ok_iff {name : String} {n : Node} :
    t.lookUp p name = .ok n ↔ (Bytes.ofText name).length ≤ maxName ∧ t.node? (p ++ [name]) = some n := by
  unfold lookUp
  split
  · rename_i h
    exact iff_of_false (fun h => by cases h) fun h' => Nat.not_le.mpr h h'.1
  · rename_i h
    cases t.node? (p ++ [name]) with
    | none => simp
    | some m => simp [Nat.not_lt.mp h]

theorem lookUp_eq_notFound_iff {name : String} :
    t.lookUp p name = .error .notFound ↔ (Bytes.ofText name).length ≤ maxName ∧ t.node? (p ++ [name]) = none := by
  unfold lookUp
  split
  · rename_i h
    exact iff_of_false (fun h => by cases h) fun h' => Nat.not_le.mpr h h'.1
  · rename_i h
    cases t.node? (p ++ [name]) <;> simp [Nat.not_lt.mp h]

theorem walk_nil_eq_ok_iff {q : Path} : t.walk p [] = .ok q ↔ p = q := by rw [walk, Except.ok.injEq]

theorem walk_cons_eq_ok_iff {s : Step} {ss : List Step} {q : Path} : t.walk p (s :: ss) = .ok q ↔
    t.node? p = some .directory ∧ ∃ next, t.step p s = .ok next ∧ t.walk next ss = .ok q := by
  rw [walk, bind_eq_ok_iff]
  simp only [requireDirectory_eq_ok_iff, bind_eq_ok_iff, exists_const]

theorem step_eq_ok_iff {s : Step} {q : Path} : t.step p s = .ok q ↔
    s = .stay ∧ q = p ∨ s = .up ∧ q = p.dropLast ∨
      ∃ name n, s = .down name ∧ t.lookUp p name = .ok n ∧ q = p ++ [name] := by
  cases s with
  | stay => simp [step, eq_comm]
  | up => simp [step, eq_comm]
  | down name => cases h : t.lookUp p name <;> simp [step, h, Except.map, eq_comm]

/-! ## Files that come to stand somewhere -/

/-- A file with these octets stands at a path where no directory stood, and nothing else has changed. -/
structure Gains (t : FileTree) (w : Path) (content : Bytes) (t' : FileTree) : Prop where
  free : t.node? w ≠ some .directory
  file : t'.node? w = some (.file content)
  others : ∀ v, v ≠ w → t'.node? v = t.node? v
  here : t'.here = t.here

theorem gains_put {w : Path} (hw : t.node? w ≠ some .directory) (content : Bytes) :
    t.Gains w content (t.put w (.file content)) := by
  have hne : w ≠ [] := by
    rintro rfl
    exact hw (if_pos rfl)
  refine ⟨hw, ?_, fun v hv => ?_, rfl⟩
  · rw [node?_put hne, if_pos rfl]
  · rw [node?_put hne, if_neg hv]

namespace Gains
variable {w : Path} {content : Bytes} {t' : FileTree}

theorem directory (h : t.Gains w content t') (hp : t.node? p = some .directory) : t'.node? p = some .directory := by
  rw [h.others p fun heq => h.free (heq ▸ hp), hp]

theorem step (h : t.Gains w content t') {s : Step} {q : Path} (hstep : t.step p s = .ok q) : t'.step p s = .ok q := by
  rw [step_eq_ok_iff] at hstep ⊢
  refine hstep.imp_right (Or.imp_right ?_)
  rintro ⟨name, n, rfl, hlook, rfl⟩
  obtain ⟨hlength, hnode⟩ := lookUp_eq_ok_iff.mp hlook
  by_cases hw : p ++ [name] = w
  · exact ⟨name, _, rfl, lookUp_eq_ok_iff.mpr ⟨hlength, hw ▸ h.file⟩, rfl⟩
  · exact ⟨name, n, rfl, lookUp_eq_ok_iff.mpr ⟨hlength, (h.others _ hw).trans hnode⟩, rfl⟩

theorem walk (h : t.Gains w content t') {ss : List Step} {q : Path} (hwalk : t.walk p ss = .ok q) :
    t'.walk p ss = .ok q := by
  induction ss generalizing p with
  | nil => exact hwalk
  | cons s ss ih =>
    obtain ⟨hp, next, hstep, hrest⟩ := walk_cons_eq_ok_iff.mp hwalk
    exact walk_cons_eq_ok_iff.mpr ⟨h.directory hp, next, h.step hstep, ih hrest⟩

/-- No directory has to make way for a file, so all ways through directories stay. -/
theorem inside (h : t.Gains w content t') {fromRoot : Bool} {steps : List Step} (hp : t.Inside fromRoot steps p) :
    t'.Inside fromRoot steps p := by
  have horigin : t'.origin fromRoot = t.origin fromRoot := by rw [origin, origin, h.here]
  refine ⟨?_, h.directory hp.directory⟩
  rw [horigin]
  exact h.walk hp.walk

end Gains

/-! ## What stands under a name -/

/-- What stands under a name below a directory. -/
def Holds (t : FileTree) (dir name : String) (n : Node) : Prop :=
  ∃ r, Route.ofText (Route.join dir name) = .ok r ∧ t.target? r = some n

/-- The last step of a route. -/
theorem walk_append_eq_ok_iff {ss : List Step} {s : Step} {q : Path} : t.walk p (ss ++ [s]) = .ok q ↔
    ∃ last, t.walk p ss = .ok last ∧ t.node? last = some .directory ∧ t.step last s = .ok q := by
  induction ss generalizing p with
  | nil => simp [walk_cons_eq_ok_iff, walk_nil_eq_ok_iff]
  | cons s' ss ih =>
    simp only [List.cons_append, walk_cons_eq_ok_iff, ih]
    constructor
    · rintro ⟨hp, next, hnext, last, hlast, hdirectory, hstep⟩
      exact ⟨last, ⟨hp, next, hnext, hlast⟩, hdirectory, hstep⟩
    · rintro ⟨last, ⟨hp, next, hnext, hlast⟩, hdirectory, hstep⟩
      exact ⟨hp, next, hnext, last, hlast, hdirectory, hstep⟩

section
variable {fromRoot : Bool} {steps : List Step} {name : String}

theorem start_eq : t.start ⟨fromRoot, steps ++ [.down name], false⟩ = .ok (t.origin fromRoot) := by
  cases fromRoot <;> simp [start, origin]

theorem target?_eq_some_iff {n : Node} : t.target? ⟨fromRoot, steps ++ [.down name], false⟩ = some n ↔
    ∃ p, t.Inside fromRoot steps p ∧ t.lookUp p name = .ok n := by
  have hfind : ∀ q, t.find ⟨fromRoot, steps ++ [.down name], false⟩ = .ok q ↔
      ∃ p, t.Inside fromRoot steps p ∧ t.step p (.down name) = .ok q := by
    intro q
    rw [find, start_eq]
    refine walk_append_eq_ok_iff.trans (exists_congr fun p => ?_)
    rw [← and_assoc]
    exact and_congr_left fun _ => ⟨fun h => ⟨h.1, h.2⟩, fun h => ⟨h.walk, h.directory⟩⟩
  have hlast : ∀ p q, t.step p (.down name) = .ok q ∧ t.node? q = some n ↔ q = p ++ [name] ∧ t.lookUp p name = .ok n := by
    intro p q
    rw [step_eq_ok_iff, lookUp_eq_ok_iff]
    simp only [reduceCtorEq, false_and, false_or, Step.down.injEq]
    constructor
    · rintro ⟨⟨_, m, rfl, hlook, rfl⟩, hnode⟩
      exact ⟨rfl, (lookUp_eq_ok_iff.mp hlook).1, hnode⟩
    · rintro ⟨rfl, hlength, hnode⟩
      exact ⟨⟨name, n, rfl, lookUp_eq_ok_iff.mpr ⟨hlength, hnode⟩, rfl⟩, hnode⟩
  rw [target?, Option.bind_eq_some_iff]
  simp only [toOption_eq_some_iff, hfind]
  constructor
  · rintro ⟨q, ⟨p, hp, hstep⟩, hnode⟩
    exact ⟨p, hp, ((hlast p q).mp ⟨hstep, hnode⟩).2⟩
  · rintro ⟨p, hp, hlook⟩
    obtain ⟨hstep, hnode⟩ := (hlast p _).mpr ⟨rfl, hlook⟩
    exact ⟨p ++ [name], ⟨p, hp, hstep⟩, hnode⟩

theorem findParent_eq_ok_iff : t.findParent ⟨fromRoot, steps ++ [.down name], false⟩ = .ok p ↔
    t.Inside fromRoot steps p := by
  rw [findParent, start_eq, List.dropLast_concat]
  change (t.walk (t.origin fromRoot) steps >>= fun p => t.requireDirectory p >>= fun _ => Except.ok p) = .ok p ↔ _
  constructor
  · intro h
    obtain ⟨q, hq, h⟩ := bind_eq_ok_iff.mp h
    obtain ⟨_, hdirectory, h⟩ := bind_eq_ok_iff.mp h
    obtain rfl : q = p := Except.ok.inj h
    exact ⟨hq, requireDirectory_eq_ok_iff.mp hdirectory⟩
  · intro h
    exact bind_eq_ok_iff.mpr ⟨p, h.walk, bind_eq_ok_iff.mpr ⟨(), requireDirectory_eq_ok_iff.mpr h.directory, rfl⟩⟩

/-- What writing comes to: a device takes everything, else a file is put where no directory stands. -/
theorem writeFile_eq_ok {content : Bytes} {t' : FileTree}
    (h : t.writeFile ⟨fromRoot, steps ++ [.down name], false⟩ content = .ok t') :
    ∃ p, t.Inside fromRoot steps p ∧ (t.lookUp p name = .ok .sink ∧ t' = t ∨
      t.node? (p ++ [name]) ≠ some .directory ∧ (Bytes.ofText name).length ≤ maxName ∧
        t' = t.put (p ++ [name]) (.file content)) := by
  rw [writeFile] at h
  obtain ⟨p, hp, h⟩ := bind_eq_ok_iff.mp h
  refine ⟨p, findParent_eq_ok_iff.mp hp, ?_⟩
  rw [List.getLast?_concat] at h
  dsimp only at h
  split at h
  · cases h
  · rename_i hlook
    exact .inl ⟨hlook, (Except.ok.inj h).symm⟩
  · rename_i m hlook
    obtain ⟨hlength, hnode⟩ := lookUp_eq_ok_iff.mp hlook
    exact .inr ⟨by simp [hnode], hlength, (Except.ok.inj h).symm⟩
  · rename_i hlook
    obtain ⟨hlength, hnode⟩ := lookUp_eq_notFound_iff.mp hlook
    exact .inr ⟨by simp [hnode], hlength, (Except.ok.inj h).symm⟩
  · cases h

end

/-! ## Files of a report -/

theorem report_write_eq (dir name : String) (content : Bytes) (t : FileTree) :
    Report.write disk dir name content t = match Route.ofText (Route.join dir name) with
      | .error e => (.error (Report.unwritten (Route.join dir name) e), t)
      | .ok r =>
        match t.writeFile r content with
        | .error e => (.error (Report.unwritten (Route.join dir name) e), t)
        | .ok t' => (.ok (Route.join dir name), t') := by
  rw [Report.write]
  cases Route.ofText (Route.join dir name) with
  | error e => rfl
  | ok r =>
    change (match changeBy (fun t => t.writeFile r content) t with
      | (written, t') => ((written.map fun _ => Route.join dir name).mapError (Report.unwritten (Route.join dir name)), t')) = _
    rw [changeBy]
    dsimp only
    cases t.writeFile r content <;> rfl

variable {dir name other : String} {content : Bytes} {t' : FileTree}

/-- A refused file changes nothing. -/
theorem eq_of_write_error {why : Trouble} (h : Report.write disk dir name content t = (.error why, t')) : t' = t := by
  rw [report_write_eq] at h
  split at h
  · exact (congrArg Prod.snd h).symm
  · split at h
    · exact (congrArg Prod.snd h).symm
    · cases h

theorem writeFile_of_write {path : String} (h : Report.write disk dir name content t = (.ok path, t')) :
    ∃ r, Route.ofText (Route.join dir name) = .ok r ∧ t.writeFile r content = .ok t' := by
  rw [report_write_eq] at h
  split at h
  · cases h
  · rename_i r hr
    split at h
    · cases h
    · rename_i written hwritten
      exact ⟨r, hr, hwritten.trans (congrArg Except.ok (congrArg Prod.snd h))⟩

/-- Octets are written under a name in a directory: a file with them comes to stand there, or a device takes them. -/
inductive Takes (t : FileTree) (dir name : String) (content : Bytes) : FileTree → Prop where
  | file {t' : FileTree} {d : Route} {p : Path} : Route.ofText dir = .ok d → t.Inside d.fromRoot d.steps p →
      t.Gains (p ++ [name]) content t' → t'.Holds dir name (.file content) → Takes t dir name content t'
  | device {d : Route} {p : Path} : Route.ofText dir = .ok d → t.Inside d.fromRoot d.steps p →
      t.Holds dir name .sink → Takes t dir name content t

theorem takes_of_write (hname : Route.IsName name) {path : String}
    (h : Report.write disk dir name content t = (.ok path, t')) : t.Takes dir name content t' := by
  obtain ⟨r, hr, hwrite⟩ := writeFile_of_write h
  obtain ⟨d, hd, rfl⟩ := Route.of_join hname hr
  obtain ⟨p, hp, ⟨hlook, rfl⟩ | ⟨hnode, hlength, rfl⟩⟩ := writeFile_eq_ok hwrite
  · exact .device hd hp ⟨_, hr, target?_eq_some_iff.mpr ⟨p, hp, hlook⟩⟩
  · have hgains := gains_put hnode content
    refine .file hd hp hgains ⟨_, hr, target?_eq_some_iff.mpr ⟨p, hgains.inside hp, ?_⟩⟩
    exact lookUp_eq_ok_iff.mpr ⟨hlength, hgains.file⟩

theorem Takes.holds (h : t.Takes dir name content t') :
    t'.Holds dir name (.file content) ∨ t'.Holds dir name .sink := by
  cases h with
  | file _ _ _ hholds => exact .inl hholds
  | device _ _ hholds => exact .inr hholds

/-- What stands under other names stays. -/
theorem Takes.holds_other (h : t.Takes dir name content t') (hother : Route.IsName other) (hne : other ≠ name) {n : Node}
    (hholds : t.Holds dir other n) : t'.Holds dir other n := by
  obtain ⟨r, hr, htarget⟩ := hholds
  obtain ⟨d', hd', rfl⟩ := Route.of_join hother hr
  cases h with
  | device => exact ⟨_, hr, htarget⟩
  | @file _ d p hd hp hgains =>
    -- both names are one step below the same directory, so different names are different paths
    obtain rfl : d = d' := Except.ok.inj (hd.symm.trans hd')
    obtain ⟨q, hq, hlook⟩ := target?_eq_some_iff.mp htarget
    obtain ⟨hlength, hstands⟩ := lookUp_eq_ok_iff.mp hlook
    obtain rfl : p = q := hp.unique hq
    have hplace : p ++ [other] ≠ p ++ [name] := fun h => hne (by simpa using h)
    refine ⟨_, hr, target?_eq_some_iff.mpr ⟨p, hgains.inside hq, lookUp_eq_ok_iff.mpr ⟨hlength, ?_⟩⟩⟩
    rw [hgains.others _ hplace, hstands]

/-- The directory stays, and nothing changes but what stands under the name in it. -/
theorem Takes.inside (h : t.Takes dir name content t') : ∃ d p, Route.ofText dir = .ok d ∧
    t.Inside d.fromRoot d.steps p ∧ t'.Inside d.fromRoot d.steps p ∧
    ∀ w, t'.node? w = t.node? w ∨ w = p ++ [name] ∧ t'.node? w = some (.file content) := by
  cases h with
  | @file _ d p hd hp hgains =>
    refine ⟨d, p, hd, hp, hgains.inside hp, fun w => ?_⟩
    by_cases hw : w = p ++ [name]
    · exact .inr ⟨hw, hw ▸ hgains.file⟩
    · exact .inl (hgains.others w hw)
  | @device d p hd hp => exact ⟨d, p, hd, hp, hp, fun _ => .inl rfl⟩

end FileTree
end TransitLink.Probe
