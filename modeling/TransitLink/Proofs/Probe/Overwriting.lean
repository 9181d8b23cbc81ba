import TransitLink.Proofs.Probe.FileNames
import TransitLink.Proofs.Probe.Saving

/-!
# What becomes of files during a visit

* `Moves.holds_last` : in the end, every name holds what was written last under it.
* `exists_files` : the files that are written on a visit.
* `files_apart_iff` : when no file of a visit takes the place of another one.
-/

namespace TransitLink.Probe

set_option autoImplicit false

/-! ## Files in a tree -/

section
variable {greeting : Except Failure Unit} {answers : Nat → Except Failure Response} {dir : String} {stamps : Nat → String}

/-- In the end, every name holds what was written last under it, unless it is that of a device. -/
theorem Peer.Moves.holds_last {place place' : FileTree × Nat} {log : List Happening}
    (h : (onDisk greeting answers dir stamps).Moves place log place') (hnames : ∀ f ∈ files log, Route.IsName f.1)
    {before after : List (String × Content)} {name : String} {content : Content}
    (hsplit : files log = before ++ (name, content) :: after) (hlater : name ∉ after.map Prod.fst) :
    ∃ k, place'.1.Holds dir name (.file (Report.octets (stamps k) content)) ∨ place'.1.Holds dir name .sink := by
  obtain ⟨written, hwritten, hsaved⟩ := h.saved hnames
  rw [hsplit] at hnames hwritten
  -- what was written falls apart as the files do
  have hrest := List.forall₂_drop_append _ _ _ hwritten.flip
  obtain ⟨w, later, ⟨k, rfl⟩, hlater', hdrop⟩ := List.forall₂_cons_right_iff.mp hrest
  rw [← List.take_append_drop before.length written, hdrop] at hsaved
  refine ⟨k, hsaved.holds_last (hnames _ (List.mem_append_right _ List.mem_cons_self)) ?_⟩
  rwa [names_of_written hlater'.flip]

end

/-! ## Visits -/

namespace Suite

/-- How a visit ends whose files are kept below a directory of a tree. -/
def visitedOnDisk (greeting : Except Failure Unit) (answers : Nat → Except Failure Response) (dir : String)
    (stamps : Nat → String) (q : RailwayQuery) (tree : FileTree) : Except Trouble Unit × Record (FileTree × Nat) :=
  visited (Peer.onDisk greeting answers dir stamps) q (tree, 0)

/-- What happens on a visit: errands are done, and their files are written up to the first one that is refused. -/
theorem exists_files {σ : Type} (peer : Peer σ) (q : RailwayQuery) (place : σ) : ∃ done : List (Errand × Response),
    done.map Prod.fst <+: agendaFor q peer.answers ∧
    (List.range done.length).map peer.answers = done.map (fun d => .ok d.2) ∧
    files (visited peer q place).2.log <+: done.flatMap (fun d => d.1.files q d.2) ∧
    ((∀ name content t, .refused name content t ∉ (visited peer q place).2.log) →
      files (visited peer q place).2.log = done.flatMap fun d => d.1.files q d.2) ∧
    ((visited peer q place).1 = .ok () →
      files (visited peer q place).2.log = (done.flatMap fun d => d.1.files q d.2) ∧
        done.map Prod.fst = agendaFor q peer.answers) ∧
    peer.Moves place (visited peer q place).2.log (visited peer q place).2.place := by
  cases hgreeting : peer.greeting with
  | error e =>
    rw [visited_of_refused hgreeting]
    exact ⟨[], List.nil_prefix, rfl, List.prefix_rfl, fun _ => rfl, fun h => (by cases h), .dialled (.closed (.nil _))⟩
  | ok _ =>
    obtain ⟨done, last, outcome, d, hanswers, hending, hd, htook⟩ := exists_visit hgreeting q place
    have hlog : (visited peer q place).2.log = .dialled :: (d.1 ++ [.closed]) := htook.log
    have hmoves : peer.Moves place (.dialled :: (d.1 ++ [.closed])) (visited peer q place).2.place := htook.moves
    have hfiles : files (visited peer q place).2.log = files d.1 := by
      rw [hlog]
      exact (files_append d.1 [.closed]).trans (List.append_nil _)
    have hlast : last = [] ∨ ∃ t : Errand, last = [t.request q] :=
      hending.imp (fun h => h.2.1) fun ⟨t, _, _, _, h, _⟩ => ⟨t, h⟩
    have hcourse := files_done_append hlast done
    refine ⟨done, ?_, hanswers, ?_, fun hwritten => ?_, fun hok => ?_, hlog ▸ hmoves⟩
    · rcases hending with ⟨hdone, -⟩ | ⟨t, e, hdone, -⟩
      · exact hdone ▸ List.prefix_rfl
      · exact (List.prefix_append _ _).trans hdone
    · rw [hfiles, ← hcourse]
      exact hd.filterMap_prefix fun _ _ _ => rfl
    · have hwhole := hd.eq_of_written fun name content t ht => hwritten name content t <| by
        rw [hlog]
        exact List.mem_cons_of_mem _ (List.mem_append_left _ ht)
      rw [hfiles, hwhole, hcourse]
    · have hwhole := hd.eq_of_ok (htook.result.symm.trans hok)
      refine ⟨by rw [hfiles, hwhole, hcourse], ?_⟩
      rcases hending with ⟨hdone, -⟩ | ⟨t, e, -, -, -, houtcome⟩
      · exact hdone
      · rw [htook.result, hwhole, houtcome] at hok
        cases hok

/-- The names of the files of a visit are single steps. -/
theorem isName_of_mem_files_visited {σ : Type} (peer : Peer σ) (q : RailwayQuery) (place : σ) :
    ∀ f ∈ files (visited peer q place).2.log, Route.IsName f.1 := by
  obtain ⟨done, -, -, hfiles, -⟩ := exists_files peer q place
  intro f hf
  obtain ⟨d, -, hf⟩ := List.mem_flatMap.mp (hfiles.subset hf)
  exact isName_of_mem_files hf

/-- **When no file takes the place of another one.** On a visit, errands are done one after the other, and the files of the
responses are written, all of them unless one is refused; when the visit ends well, the whole agenda is done. The names of
these files are different exactly if three kinds of slugs are: those of the dimensions of entries whose octets are saved
among themselves, those of the entries saved as JSON from the one of the dimension asked about, and those of the networks
among themselves, where the network of all graphs counts as `all`. In the end every name holds what was written last under
it, unless it is that of a device, which keeps nothing: octets as they are, or the text of a value under the time. -/
theorem files_apart_iff (greeting : Except Failure Unit) (answers : Nat → Except Failure Response) (dir : String)
    (stamps : Nat → String) (q : RailwayQuery) (tree : FileTree) : ∃ done : List (Errand × Response),
    done.map Prod.fst <+: agendaFor q answers ∧
    (List.range done.length).map answers = done.map (fun d => .ok d.2) ∧
    files (visitedOnDisk greeting answers dir stamps q tree).2.log <+: done.flatMap (fun d => d.1.files q d.2) ∧
    ((∀ name content t, .refused name content t ∉ (visitedOnDisk greeting answers dir stamps q tree).2.log) →
      files (visitedOnDisk greeting answers dir stamps q tree).2.log = done.flatMap fun d => d.1.files q d.2) ∧
    ((visitedOnDisk greeting answers dir stamps q tree).1 = .ok () →
      files (visitedOnDisk greeting answers dir stamps q tree).2.log = (done.flatMap fun d => d.1.files q d.2) ∧
        done.map Prod.fst = agendaFor q answers) ∧
    (((done.flatMap fun d => d.1.files q d.2).map Prod.fst).Nodup ↔
      (∀ r, (Errand.snapshot, r) ∈ done → (octetSlugs q r).Nodup ∧ dimensionSlug q ∉ jsonSlugs q r) ∧
        (done.filterMap fun d => d.1.network?).Nodup) ∧
    ∀ before name content after, files (visitedOnDisk greeting answers dir stamps q tree).2.log =
      before ++ (name, content) :: after → name ∉ after.map Prod.fst → ∃ k,
        Stored (stamps k) content (Report.octets (stamps k) content) ∧
        ((visitedOnDisk greeting answers dir stamps q tree).2.place.1.Holds dir name
            (.file (Report.octets (stamps k) content)) ∨
          (visitedOnDisk greeting answers dir stamps q tree).2.place.1.Holds dir name .sink) := by
  obtain ⟨done, hdone, hanswers, hfiles, hwritten, hok, hmoves⟩ :=
    exists_files (Peer.onDisk greeting answers dir stamps) q (tree, 0)
  refine ⟨done, hdone, hanswers, hfiles, hwritten, hok, nodup_names_iff hdone, fun before name content after hsplit hlater => ?_⟩
  obtain ⟨k, hholds⟩ := hmoves.holds_last (isName_of_mem_files_visited _ q _) hsplit hlater
  exact ⟨k, stored_octets _ _, hholds⟩

/-- A peer with two graphs whose names differ in one character. Everything else is empty. -/
def twoGraphs : Peer Unit where
  greeting := .ok ()
  answers k := .ok {
    requestId := ""
    result := some "OK"
    message := none
    payload? := if k = 4 then
        some (.obj [("graphs", .arr [.obj [("graphId", .str "a:b")], .obj [("graphId", .str "a_b")]])])
      else none
    extra := [] }
  write _ _ _ := (.ok (), ())

/-- The responses for two graphs are written to one file. -/
theorem two_graphs_share_a_file :
    (visited twoGraphs ⟨none, 0, none, none, 0⟩ ()).1 = .ok () ∧
      ¬ ((files (visited twoGraphs ⟨none, 0, none, none, 0⟩ ()).2.log).map Prod.fst).Nodup := by
  decide +kernel

end Suite
end TransitLink.Probe
