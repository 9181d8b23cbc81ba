import TransitLink.Proofs.Probe.Overwriting

/-!
# Files stay in their directory

* `portable` : the characters that a slug is made of. `slug_eq_self_iff` : the texts that are slugs already.
* `attempts` : the names under which files were written or were to be written.
* `files_stay_in_directory` : what a peer says does not lead out of the directory.
-/

namespace TransitLink.Probe

set_option autoImplicit false

/-! ## Slugs -/

def portable : List Char := "0123456789ABCDEFGHIJKLMNOPQRSTUVWXYZabcdefghijklmnopqrstuvwxyz_-".toList

theorem isPlain_iff {c : Char} : isPlain c = true ↔ c ∈ portable := by
  have hportable : ∀ c ∈ portable, isPlain c = true := List.all_eq_true.mp (by decide +kernel)
  have hascii : ∀ n < 128, isPlain (Char.ofNat n) = true → Char.ofNat n ∈ portable := by decide +kernel
  refine ⟨fun h => ?_, hportable c⟩
  have hlt : c.toNat < 128 := by
    simp only [isPlain, Bool.or_eq_true, Bool.and_eq_true, decide_eq_true_eq, beq_iff_eq] at h
    rcases h with (((⟨-, hc⟩ | ⟨-, hc⟩) | ⟨-, hc⟩) | rfl) | rfl
    · exact Nat.lt_of_le_of_lt (Char.le_def.mp hc) (by decide)
    · exact Nat.lt_of_le_of_lt (Char.le_def.mp hc) (by decide)
    · exact Nat.lt_of_le_of_lt (Char.le_def.mp hc) (by decide)
    · decide
    · decide
  have hmem := hascii c.toNat hlt
  rw [Char.ofNat_toNat] at hmem
  exact hmem h

theorem length_slug (s : String) : (slug s).length = s.length := by
  rw [slug, ← String.length_toList, String.toList_ofList, List.length_map, String.length_toList]

theorem mem_portable_of_mem_slug {s : String} {c : Char} (h : c ∈ (slug s).toList) : c ∈ portable := by
  rw [slug, String.toList_ofList, List.mem_map] at h
  obtain ⟨c', -, rfl⟩ := h
  split
  · rename_i hplain
    exact isPlain_iff.mp hplain
  · decide

theorem slug_eq_self_iff {s : String} : slug s = s ↔ ∀ c ∈ s.toList, c ∈ portable := by
  constructor
  · intro h c hc
    rw [← h] at hc
    exact mem_portable_of_mem_slug hc
  · intro h
    have hmap : (s.toList.map fun c => if isPlain c then c else '_') = s.toList.map id :=
      List.map_congr_left fun c hc => if_pos (isPlain_iff.mpr (h c hc))
    rw [slug, hmap, List.map_id, String.ofList_toList]

theorem slug_slug (s : String) : slug (slug s) = slug s :=
  slug_eq_self_iff.mpr fun _ hc => mem_portable_of_mem_slug hc

/-! ## Attempts -/

/-- The name under which a file was written or refused, if one was. -/
def Happening.attempt? : Happening → Option String
  | left (.file name _) => some name
  | refused name _ _ => some name
  | _ => none

/-- The names of the files in a log, in order, with those of the files that were refused. -/
def attempts (log : List Happening) : List String := log.filterMap Happening.attempt?

theorem mem_attempts_iff {log : List Happening} {name : String} :
    name ∈ attempts log ↔ ∃ content, .left (.file name content) ∈ log ∨ ∃ t, .refused name content t ∈ log := by
  rw [attempts, List.mem_filterMap]
  constructor
  · rintro ⟨happening, hmem, hname⟩
    cases happening with
    | left n =>
      cases n with
      | file other content =>
        obtain rfl := Option.some.inj hname
        exact ⟨content, .inl hmem⟩
      | warning _ => cases hname
    | refused other content t =>
      obtain rfl := Option.some.inj hname
      exact ⟨content, .inr ⟨t, hmem⟩⟩
    | _ => cases hname
  · rintro ⟨content, hmem | ⟨t, hmem⟩⟩
    · exact ⟨_, hmem, rfl⟩
    · exact ⟨_, hmem, rfl⟩

theorem left_mem_of_mem_files {log : List Happening} {name : String} {content : Content}
    (h : (name, content) ∈ files log) : .left (.file name content) ∈ log := by
  obtain ⟨happening, hmem, hfile⟩ := List.mem_filterMap.mp h
  cases happening with
  | left n =>
    cases n with
    | file other written =>
      obtain ⟨rfl, rfl⟩ := Prod.mk.inj (Option.some.inj hfile)
      exact hmem
    | warning _ => cases hfile
  | _ => cases hfile

theorem Follows.attempts_prefix {c d : Course} (h : Follows c d) : attempts d.1 <+: attempts c.1 := by
  cases h with
  | whole => exact List.prefix_rfl
  | @cut front name content t hfront =>
    have hsame : attempts (front ++ [.refused name content t]) = attempts (front ++ [.left (.file name content)]) := by
      rw [attempts, attempts, List.filterMap_append, List.filterMap_append]
      rfl
    rw [hsame]
    exact hfront.filterMap _

theorem attempts_eq_of_written {log : List Happening} (h : ∀ name content t, .refused name content t ∉ log) :
    attempts log = (files log).map Prod.fst := by
  rw [attempts, files, List.map_filterMap]
  refine List.filterMap_congr fun happening hmem => ?_
  cases happening with
  | left n => cases n <;> rfl
  | refused name content t => exact absurd hmem (h name content t)
  | _ => rfl

/-! ## Visits -/

namespace Suite

def stems : List String :=
  ["beacon_ping.json", "mtr_railway_snapshot_", "mtr_route_trains_", "mtr_station_schedule_", "mtr_depot_trains_",
    "create_network_", "create_realtime.json"]

theorem stem_mem_stems (t : Errand) : t.stem ∈ stems := by
  cases t <;> simp [stems, Errand.stem]

/-- Errands that are done have no refusals of their own. -/
theorem written_done_append {q : RailwayQuery} {last : List Happening}
    (hlast : last = [] ∨ ∃ t : Errand, last = [t.request q]) (done : List (Errand × Response)) (name : String)
    (content : Content) (t : Trouble) :
    .refused name content t ∉ done.flatMap (fun d => d.1.happenings q d.2) ++ last := by
  intro hmem
  rcases List.mem_append.mp hmem with hmem | hmem
  · obtain ⟨d, -, hmem⟩ := List.mem_flatMap.mp hmem
    rcases List.mem_cons.mp hmem with hrequest | hmem
    · cases hrequest
    · obtain ⟨n, -, hn⟩ := List.mem_map.mp hmem
      cases hn
  · rcases hlast with rfl | ⟨t, rfl⟩
    · cases hmem
    · rcases List.mem_singleton.mp hmem with ⟨⟩

theorem exists_of_mem_attempts {σ : Type} {peer : Peer σ} {q : RailwayQuery} {place : σ} {name : String}
    (h : name ∈ attempts (visited peer q place).2.log) : ∃ t r, ∃ f ∈ Errand.files q t r, f.1 = name := by
  cases hgreeting : peer.greeting with
  | error e =>
    rw [visited_of_refused hgreeting] at h
    cases h
  | ok _ =>
    obtain ⟨done, last, outcome, d, -, hending, hd, htook⟩ := exists_visit hgreeting q place
    have hlog : (visited peer q place).2.log = .dialled :: (d.1 ++ [.closed]) := htook.log
    have hattempts : attempts (visited peer q place).2.log = attempts d.1 := by
      rw [hlog, attempts, attempts, List.filterMap_cons_none rfl, List.filterMap_append]
      exact List.append_nil _
    have hlast : last = [] ∨ ∃ t : Errand, last = [t.request q] :=
      hending.imp (fun h => h.2.1) fun ⟨t, _, _, _, h, _⟩ => ⟨t, h⟩
    have hattempted := hd.attempts_prefix
    rw [attempts_eq_of_written (written_done_append hlast done), files_done_append hlast] at hattempted
    rw [hattempts] at h
    obtain ⟨f, hf, rfl⟩ := List.mem_map.mp (hattempted.subset h)
    obtain ⟨d, -, hf⟩ := List.mem_flatMap.mp hf
    exact ⟨d.1, d.2, f, hf, rfl⟩

theorem exists_stem_of_mem_files {q : RailwayQuery} {t : Errand} {r : Response} {f : String × Content}
    (hf : f ∈ t.files q r) : ∃ stem ∈ stems, ∃ rest, f.1 = stem ++ rest := by
  obtain ⟨rest, -, hrest⟩ := exists_of_mem_files hf
  exact ⟨t.stem, stem_mem_stems t, rest, hrest⟩

/-- **Files stay in their directory.** Whoever is visited, whatever the settings are and whatever the responses say: a name
under which a file is written, or was to be written, consists of letters, digits, underscores, hyphens and dots, and begins
with one of seven words. So it is no path: below whatever directory, it is the name of one step more than the steps of the
directory. In a tree of files, a visit changes nothing but what stands under such a name in the directory, and what then
stands there is a file that the visit wrote. A slug has as many characters as the text that it stands for, is the text itself
exactly if its characters are letters, digits, underscores and hyphens, and so is its own slug. -/
theorem files_stay_in_directory :
    (∀ {σ : Type} (peer : Peer σ) (q : RailwayQuery) (place : σ) (name : String) (content : Content),
      (.left (.file name content) ∈ (visited peer q place).2.log ∨
        ∃ t, .refused name content t ∈ (visited peer q place).2.log) →
      name ≠ "" ∧ (∀ c ∈ name.toList, c ∈ portable ∨ c = '.') ∧ (∃ stem ∈ stems, ∃ rest, name = stem ++ rest) ∧
      '/' ∉ name.toList ∧ name ≠ "." ∧ name ≠ ".." ∧
      ∀ dir r, Route.ofText (Route.join dir name) = .ok r →
        ∃ d, Route.ofText dir = .ok d ∧ r = ⟨d.fromRoot, d.steps ++ [.down name], false⟩) ∧
    (∀ greeting answers dir stamps q tree w,
      (visitedOnDisk greeting answers dir stamps q tree).2.place.1.node? w ≠ tree.node? w →
      ∃ d p name content k, Route.ofText dir = .ok d ∧ tree.Inside d.fromRoot d.steps p ∧
        .left (.file name content) ∈ (visitedOnDisk greeting answers dir stamps q tree).2.log ∧ w = p ++ [name] ∧
        (visitedOnDisk greeting answers dir stamps q tree).2.place.1.node? w =
          some (.file (Report.octets (stamps k) content))) ∧
    ∀ s, (slug s).length = s.length ∧ (slug s = s ↔ ∀ c ∈ s.toList, c ∈ portable) ∧ slug (slug s) = slug s := by
  refine ⟨fun peer q place name content h => ?_, fun greeting answers dir stamps q tree w hw => ?_, fun s => ?_⟩
  · obtain ⟨t, r, f, hf, rfl⟩ := exists_of_mem_attempts (mem_attempts_iff.mpr ⟨content, h⟩)
    obtain ⟨hslash, hshort⟩ : Route.IsName f.1 := isName_of_mem_files hf
    simp only [List.mem_cons, List.not_mem_nil, or_false, not_or] at hshort
    refine ⟨hshort.1, fun c hc => ?_, exists_stem_of_mem_files hf, hslash, hshort.2.1, hshort.2.2, fun dir r hr => ?_⟩
    · exact (isFit_iff.mp (isFit_of_mem_files hf) c hc).imp_left isPlain_iff.mp
    · exact Route.of_join (isName_of_mem_files hf) hr
  · obtain ⟨-, -, -, -, -, -, hmoves⟩ := exists_files (Peer.onDisk greeting answers dir stamps) q (tree, 0)
    obtain ⟨written, hwritten, hsaved⟩ := hmoves.saved (isName_of_mem_files_visited _ q _)
    obtain ⟨d, p, f, hd, hp, hf, rfl, hnode⟩ := (hsaved.node?_eq_or w).resolve_left hw
    obtain ⟨⟨name, content⟩, hfile, k, rfl⟩ := exists_of_mem_written hwritten hf
    exact ⟨d, p, name, content, k, hd, hp, left_mem_of_mem_files hfile, rfl, hnode⟩
  · exact ⟨length_slug s, slug_eq_self_iff, slug_slug s⟩

example : slug "../../etc/Überfall" = "______etc__berfall" := by decide +kernel

end Suite
end TransitLink.Probe
