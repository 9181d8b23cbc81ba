import Mathlib.Data.List.Nodup
import TransitLink.Proofs.Probe.Agenda
import TransitLink.Proofs.Probe.FileTree

/-!
# Names of files

* `IsFit` : a text that may stand in the name of a file.
* `Errand.files` : the files that are left of a response. `isName_of_mem_files` : their names are single steps.
* `take_of_mem_files` : errands of different kinds begin their names differently.
* `nodup_names_snapshot_iff`, `nodup_names_iff` : when the names of one response, and of all of them, are different.
-/

namespace TransitLink.Probe.Suite

set_option autoImplicit false

/-! ## Fit texts -/

/-- Whether all characters of a text may stand in the name of a file, where a dot may stand, too. -/
def IsFit (s : String) : Prop := (s.toList.all fun c => isPlain c || c == '.') = true

theorem isFit_iff {s : String} : IsFit s ↔ ∀ c ∈ s.toList, isPlain c = true ∨ c = '.' := by simp [IsFit]

theorem IsFit.append {s s' : String} (h : IsFit s) (h' : IsFit s') : IsFit (s ++ s') := by
  rw [isFit_iff, String.toList_append, List.forall_mem_append]
  exact ⟨isFit_iff.mp h, isFit_iff.mp h'⟩

theorem isFit_slug (s : String) : IsFit (slug s) := by
  rw [isFit_iff, slug, String.toList_ofList, List.forall_mem_map]
  intro c _
  refine .inl ?_
  split
  · assumption
  · rfl

theorem isPlain_of_isDigit {c : Char} (h : c.isDigit = true) : isPlain c = true := by
  have hrange : ('0' ≤ c && c ≤ '9') = true := h
  rw [isPlain, hrange]
  rfl

theorem isFit_toString {n : Int} (h : 0 < n) : IsFit (toString n) := by
  obtain ⟨m, rfl⟩ := Int.eq_ofNat_of_zero_le (Int.le_of_lt h)
  refine isFit_iff.mpr fun c hc => ?_
  have hdigits : c ∈ Nat.toDigits 10 m := by
    change c ∈ m.repr.toList at hc
    rwa [Nat.repr, String.toList_ofList] at hc
  exact .inl (isPlain_of_isDigit (Nat.isDigit_of_mem_toDigits (by decide) (by decide) hdigits))

theorem isFit_numberSlug {before : String} (h : IsFit before) (n : Int) : IsFit (numberSlug before n) := by
  rw [numberSlug]
  split
  · rename_i hn
    exact h.append (isFit_toString hn)
  · exact rfl

/-! ## Files -/

def octetsOf? (e : Snapshot.Entry) : Option Bytes := e.payload.bind fun blob => blob.octets.toOption

def jsonOf? (e : Snapshot.Entry) : Option Json := e.payload.bind fun blob => (blob.toJson true).toOption

def entrySlug (q : RailwayQuery) (e : Snapshot.Entry) : String := slug (entryDimension q e)

def octetFile (dimension : String) : String := "mtr_railway_snapshot_" ++ dimension ++ ".msgpack"

def jsonFile (dimension : String) : String := "mtr_railway_snapshot_" ++ dimension ++ ".json"

def entryFiles (q : RailwayQuery) (e : Snapshot.Entry) : List (String × Content) :=
  match octetsOf? e with
  | none => []
  | some bs =>
    (octetFile (entrySlug q e), .octets bs) ::
      ((jsonOf? e).map fun j => (jsonFile (entrySlug q e), Content.document j)).toList

namespace Errand

def furtherFiles (q : RailwayQuery) : Errand → Response → List (String × Content)
  | snapshot, r => (Snapshot.entries r.payload).flatMap (entryFiles q)
  | _, _ => []

/-- The files of a response, its own first. -/
def files (q : RailwayQuery) (t : Errand) (r : Response) : List (String × Content) :=
  (t.file q, .document r.toJson) :: t.furtherFiles q r

/-- The network whose response a file takes, as its name has it. -/
def network? : Errand → Option String
  | network => some "all"
  | graph id => some (slug id)
  | _ => none

def stem : Errand → String
  | ping => "beacon_ping.json"
  | snapshot => "mtr_railway_snapshot_"
  | routeTrains => "mtr_route_trains_"
  | stationSchedule _ => "mtr_station_schedule_"
  | depotTrains => "mtr_depot_trains_"
  | network => "create_network_"
  | graph _ => "create_network_"
  | realtime => "create_realtime.json"

end Errand

section
variable {q : RailwayQuery}

theorem files_entryNotes (e : Snapshot.Entry) : Probe.files ((entryNotes q e).map .left) = entryFiles q e := by
  rw [entryNotes, entryFiles, octetsOf?, jsonOf?]
  cases e.payload with
  | none => rfl
  | some blob =>
    dsimp only [Option.bind_some]
    cases blob.octets with
    | error why => rfl
    | ok bs => cases blob.toJson true <;> rfl

theorem files_snapshotNotes (r : Response) :
    Probe.files ((snapshotNotes q r).map .left) = (Snapshot.entries r.payload).flatMap (entryFiles q) := by
  have hentries : ∀ es : List Snapshot.Entry,
      Probe.files ((es.flatMap (entryNotes q)).map .left) = es.flatMap (entryFiles q) := by
    intro es
    induction es with
    | nil => rfl
    | cons e es ih =>
      rw [List.flatMap_cons, List.flatMap_cons, List.map_append, files_append, files_entryNotes, ih]
  rw [snapshotNotes, List.map_append, files_append, hentries]
  split <;> rfl

theorem files_happenings (t : Errand) (r : Response) : Probe.files (t.happenings q r) = t.files q r := by
  have hcomplaints : Probe.files ((complaints t.action r).map .left) = [] := by
    rw [complaints]
    split <;> rfl
  have hfurther : Probe.files ((t.further q r).map .left) = t.furtherFiles q r := by
    cases t with
    | snapshot => exact files_snapshotNotes r
    | _ => rfl
  have hnotes : Probe.files ((t.notes q r).map .left) = t.files q r := by
    rw [Errand.notes, List.map_append, files_append, hcomplaints, List.nil_append, List.map_cons, Errand.files, ← hfurther]
    rfl
  exact hnotes

theorem files_done (done : List (Errand × Response)) :
    Probe.files (done.flatMap fun d => d.1.happenings q d.2) = done.flatMap fun d => d.1.files q d.2 := by
  induction done with
  | nil => rfl
  | cons d done ih => rw [List.flatMap_cons, files_append, files_happenings, ih, List.flatMap_cons]

/-- A request without a response leaves no files. -/
theorem files_done_append {last : List Happening} (hlast : last = [] ∨ ∃ t : Errand, last = [t.request q])
    (done : List (Errand × Response)) :
    Probe.files (done.flatMap (fun d => d.1.happenings q d.2) ++ last) = done.flatMap fun d => d.1.files q d.2 := by
  rw [files_append, files_done]
  rcases hlast with rfl | ⟨t, rfl⟩ <;> exact List.append_nil _

/-! ## What names are like -/

theorem octets_of_json {e : Snapshot.Entry} {j : Json} (h : jsonOf? e = some j) : ∃ bs, octetsOf? e = some bs := by
  obtain ⟨blob, hblob, hj⟩ := Option.bind_eq_some_iff.mp h
  obtain ⟨v, hv, -⟩ := bind_eq_ok_iff.mp (toOption_eq_some_iff.mp hj)
  obtain ⟨bs, hbs, -⟩ := bind_eq_ok_iff.mp hv
  exact ⟨bs, Option.bind_eq_some_iff.mpr ⟨blob, hblob, toOption_eq_some_iff.mpr hbs⟩⟩

theorem mem_entryNames_iff {e : Snapshot.Entry} {name : String} : name ∈ (entryFiles q e).map Prod.fst ↔
    (∃ bs, octetsOf? e = some bs ∧ name = octetFile (entrySlug q e)) ∨
      ∃ j, jsonOf? e = some j ∧ name = jsonFile (entrySlug q e) := by
  rw [entryFiles]
  cases hoctets : octetsOf? e with
  | none =>
    refine iff_of_false List.not_mem_nil ?_
    rintro (⟨bs, hbs, -⟩ | ⟨j, hj, -⟩)
    · cases hbs
    · obtain ⟨bs, hbs⟩ := octets_of_json hj
      rw [hoctets] at hbs
      cases hbs
  | some bs => cases jsonOf? e <;> simp

theorem exists_stem {stem dimension between last : String} (hdimension : IsFit dimension) (hbetween : IsFit between)
    (hlast : IsFit last) :
    ∃ s, IsFit s ∧ stem ++ dimension ++ between ++ last ++ ".json" = stem ++ s := by
  have hjson : IsFit ".json" := rfl
  refine ⟨dimension ++ (between ++ (last ++ ".json")), hdimension.append (hbetween.append (hlast.append hjson)), ?_⟩
  simp only [String.append_assoc]

/-- All names of an errand begin alike, and are fit. -/
theorem exists_of_mem_files {t : Errand} {r : Response} {f : String × Content} (hf : f ∈ t.files q r) :
    ∃ s, IsFit s ∧ f.1 = t.stem ++ s := by
  have hjson : IsFit ".json" := rfl
  have hmsgpack : IsFit ".msgpack" := rfl
  have hempty : IsFit "" := rfl
  have hroute : IsFit "_route_" := rfl
  have hstation : IsFit "_station_" := rfl
  have hdepot : IsFit "depot_" := rfl
  have hbar : IsFit "_" := rfl
  have hdimension : IsFit (dimensionSlug q) := isFit_slug _
  rcases List.mem_cons.mp hf with rfl | hf
  · cases t with
    | ping => exact ⟨"", hempty, String.append_empty.symm⟩
    | snapshot => exact ⟨dimensionSlug q ++ ".json", hdimension.append hjson, String.append_assoc⟩
    | routeTrains => exact exists_stem hdimension hroute (isFit_numberSlug hempty q.routeId)
    | stationSchedule station => exact exists_stem hdimension hstation (isFit_slug station)
    | depotTrains => exact exists_stem hdimension hbar (isFit_numberSlug hdepot q.depotId)
    | network => exact ⟨"all.json", rfl, rfl⟩
    | graph id => exact ⟨slug id ++ ".json", (isFit_slug id).append hjson, String.append_assoc⟩
    | realtime => exact ⟨"", hempty, String.append_empty.symm⟩
  · cases t with
    | snapshot =>
      obtain ⟨e, -, hf⟩ := List.mem_flatMap.mp hf
      have hentry : IsFit (entrySlug q e) := isFit_slug _
      rcases mem_entryNames_iff.mp (List.mem_map_of_mem hf) with ⟨_, -, hf⟩ | ⟨_, -, hf⟩
      · exact ⟨entrySlug q e ++ ".msgpack", hentry.append hmsgpack, hf.trans String.append_assoc⟩
      · exact ⟨entrySlug q e ++ ".json", hentry.append hjson, hf.trans String.append_assoc⟩
    | _ => cases hf

theorem ten_le_length_stem (t : Errand) : 10 ≤ t.stem.toList.length := by
  cases t <;> dsimp only [Errand.stem] <;> decide

theorem isFit_of_mem_files {t : Errand} {r : Response} {f : String × Content} (hf : f ∈ t.files q r) : IsFit f.1 := by
  obtain ⟨s, hs, hname⟩ := exists_of_mem_files hf
  have hstem : IsFit t.stem := by
    unfold IsFit
    cases t <;> dsimp only [Errand.stem] <;> rfl
  exact hname ▸ hstem.append hs

/-- A name is one step below a directory. -/
theorem isName_of_mem_files {t : Errand} {r : Response} {f : String × Content} (hf : f ∈ t.files q r) :
    Route.IsName f.1 := by
  obtain ⟨s, -, hname⟩ := exists_of_mem_files hf
  have hfit : IsFit f.1 := isFit_of_mem_files hf
  have hlength : 10 ≤ f.1.toList.length := by
    rw [hname, String.toList_append, List.length_append]
    exact Nat.le_add_right_of_le (ten_le_length_stem t)
  -- the empty name and the two names of directories are too short
  refine ⟨fun hslash => absurd (isFit_iff.mp hfit _ hslash) (by decide), fun hshort => ?_⟩
  simp only [List.mem_cons, List.not_mem_nil, or_false] at hshort
  rcases hshort with h | h | h
  all_goals
    rw [h] at hlength
    exact absurd hlength (by decide)

/-- How a name begins tells what it is about. -/
theorem take_of_mem_files {t : Errand} {r : Response} {f : String × Content} (hf : f ∈ t.files q r) :
    f.1.toList.take 10 = t.stem.toList.take 10 := by
  obtain ⟨s, -, hname⟩ := exists_of_mem_files hf
  rw [hname, String.toList_append, List.take_append_of_le_length (ten_le_length_stem t)]

/-! ## When names are different -/

/-- The slugs of the entries whose octets are saved. -/
def octetSlugs (q : RailwayQuery) (r : Response) : List String :=
  (Snapshot.entries r.payload).filterMap fun e => (octetsOf? e).map fun _ => entrySlug q e

/-- The slugs of the entries that are saved as JSON. -/
def jsonSlugs (q : RailwayQuery) (r : Response) : List String :=
  (Snapshot.entries r.payload).filterMap fun e => (jsonOf? e).map fun _ => entrySlug q e

theorem octetFile_inj {d d' : String} : octetFile d = octetFile d' ↔ d = d' := by
  unfold octetFile
  rw [String.append_left_inj, String.append_right_inj]

theorem jsonFile_inj {d d' : String} : jsonFile d = jsonFile d' ↔ d = d' := by
  unfold jsonFile
  rw [String.append_left_inj, String.append_right_inj]

theorem octetFile_ne_jsonFile (d d' : String) : octetFile d ≠ jsonFile d' := by
  intro h
  unfold octetFile jsonFile at h
  have hlast := congrArg (fun s : String => s.toList.getLast?) h
  simp only [String.toList_append, List.getLast?_append] at hlast
  have hk : ".msgpack".toList.getLast? = some 'k' := by decide
  have hn : ".json".toList.getLast? = some 'n' := by decide
  rw [hk, hn, Option.some_or, Option.some_or] at hlast
  exact absurd hlast (by decide)

theorem nodup_entryNames (e : Snapshot.Entry) : ((entryFiles q e).map Prod.fst).Nodup := by
  rw [entryFiles]
  cases octetsOf? e with
  | none => exact List.nodup_nil
  | some bs => cases jsonOf? e <;> simp [octetFile_ne_jsonFile]

/-- Two entries have no name in common, if they do not share the one of their octets. -/
theorem disjoint_entryNames_iff (e e' : Snapshot.Entry) :
    List.Disjoint ((entryFiles q e).map Prod.fst) ((entryFiles q e').map Prod.fst) ↔
      ∀ s, (octetsOf? e).map (fun _ => entrySlug q e) = some s →
        ∀ s', (octetsOf? e').map (fun _ => entrySlug q e') = some s' → s ≠ s' := by
  simp only [Option.map_eq_some_iff]
  constructor
  · rintro h _ ⟨bs, hbs, rfl⟩ _ ⟨bs', hbs', rfl⟩ hslug
    exact h (mem_entryNames_iff.mpr (.inl ⟨bs, hbs, rfl⟩)) (mem_entryNames_iff.mpr (.inl ⟨bs', hbs', by rw [hslug]⟩))
  · intro h name hname hname'
    have hslug : entrySlug q e = entrySlug q e' := by
      rcases mem_entryNames_iff.mp hname with ⟨_, -, rfl⟩ | ⟨_, -, rfl⟩ <;>
        rcases mem_entryNames_iff.mp hname' with ⟨_, -, heq⟩ | ⟨_, -, heq⟩
      · exact octetFile_inj.mp heq
      · exact absurd heq (octetFile_ne_jsonFile _ _)
      · exact absurd heq.symm (octetFile_ne_jsonFile _ _)
      · exact jsonFile_inj.mp heq
    -- what is saved as JSON is saved as octets too, so equal slugs collide there in any case
    have hsaved : ∀ {e : Snapshot.Entry}, name ∈ (entryFiles q e).map Prod.fst → ∃ bs, octetsOf? e = some bs := by
      intro e hname
      rcases mem_entryNames_iff.mp hname with ⟨bs, hbs, -⟩ | ⟨j, hj, -⟩
      · exact ⟨bs, hbs⟩
      · exact octets_of_json hj
    obtain ⟨bs, hbs⟩ := hsaved hname
    obtain ⟨bs', hbs'⟩ := hsaved hname'
    exact h _ ⟨bs, hbs, rfl⟩ _ ⟨bs', hbs', rfl⟩ hslug

theorem nodup_names_snapshot_iff (r : Response) : ((Errand.snapshot.files q r).map Prod.fst).Nodup ↔
    (octetSlugs q r).Nodup ∧ dimensionSlug q ∉ jsonSlugs q r := by
  have hnames : (Errand.snapshot.files q r).map Prod.fst =
      jsonFile (dimensionSlug q) :: (Snapshot.entries r.payload).flatMap fun e => (entryFiles q e).map Prod.fst :=
    congrArg (jsonFile (dimensionSlug q) :: ·) (List.map_flatMap ..)
  have hown : jsonFile (dimensionSlug q) ∈ ((Snapshot.entries r.payload).flatMap fun e => (entryFiles q e).map Prod.fst) ↔
      dimensionSlug q ∈ jsonSlugs q r := by
    rw [List.mem_flatMap, jsonSlugs, List.mem_filterMap]
    refine exists_congr fun e => and_congr_right fun _ => ?_
    rw [mem_entryNames_iff, Option.map_eq_some_iff]
    constructor
    · rintro (⟨_, -, heq⟩ | ⟨j, hj, heq⟩)
      · exact absurd heq.symm (octetFile_ne_jsonFile _ _)
      · exact ⟨j, hj, (jsonFile_inj.mp heq).symm⟩
    · rintro ⟨j, hj, heq⟩
      exact .inr ⟨j, hj, jsonFile_inj.mpr heq.symm⟩
  have hentries : ((Snapshot.entries r.payload).flatMap fun e => (entryFiles q e).map Prod.fst).Nodup ↔
      (octetSlugs q r).Nodup := by
    rw [List.nodup_flatMap, octetSlugs, List.Nodup, List.pairwise_filterMap]
    refine (and_iff_right fun e _ => nodup_entryNames e).trans ?_
    exact List.Pairwise.iff fun e e' => disjoint_entryNames_iff e e'
  rw [hnames, List.nodup_cons, hown, hentries, and_comm]

/-! ## The names of a whole visit -/

theorem files_of_network {t : Errand} {s : String} (h : t.network? = some s) (r : Response) :
    (t.files q r).map Prod.fst = ["create_network_" ++ s ++ ".json"] := by
  cases t with
  | network =>
    obtain rfl := Option.some.inj h
    exact congrArg (fun name : String => [name]) (show "create_network_all.json" = _ by decide)
  | graph id =>
    obtain rfl := Option.some.inj h
    rfl
  | _ => cases h

/-- Errands whose names begin differently, or that are both about networks. -/
def Apart (t t' : Errand) : Prop :=
  t.stem.toList.take 10 ≠ t'.stem.toList.take 10 ∨ ∃ s s', t.network? = some s ∧ t'.network? = some s'

theorem apart_agenda (q : RailwayQuery) (graphs : List String) : (agenda q graphs).Pairwise Apart := by
  unfold agenda
  cases q.stationId <;>
    simp only [Option.map_none, Option.map_some, Option.toList_none, Option.toList_some, List.cons_append,
      List.nil_append, List.pairwise_cons, List.pairwise_append, List.pairwise_map, List.forall_mem_cons,
      List.forall_mem_append, List.forall_mem_map, List.Pairwise.nil] <;>
    simp [Apart, Errand.network?, Errand.stem, List.pairwise_of_forall]

theorem stem_of_network {t : Errand} {s : String} (h : t.network? = some s) : t.stem = "create_network_" := by
  cases t with
  | network => rfl
  | graph id => rfl
  | _ => cases h

/-- Two errands have no name in common, unless they are about networks with one slug. -/
theorem disjoint_names_iff {d d' : Errand × Response} (h : Apart d.1 d'.1) :
    List.Disjoint ((d.1.files q d.2).map Prod.fst) ((d'.1.files q d'.2).map Prod.fst) ↔
      ∀ s, d.1.network? = some s → ∀ s', d'.1.network? = some s' → s ≠ s' := by
  rcases h with htake | ⟨s, s', hs, hs'⟩
  · refine iff_of_true ?_ ?_
    · intro name hname hname'
      obtain ⟨f, hf, rfl⟩ := List.mem_map.mp hname
      obtain ⟨f', hf', heq⟩ := List.mem_map.mp hname'
      rw [← take_of_mem_files hf, ← take_of_mem_files hf', heq] at htake
      exact htake rfl
    · intro s hs s' hs'
      rw [stem_of_network hs, stem_of_network hs'] at htake
      exact absurd rfl htake
  · rw [files_of_network hs, files_of_network hs', List.disjoint_singleton, List.mem_singleton, String.append_left_inj,
      String.append_right_inj, hs, hs']
    simp [eq_comm]

/-- All names are different exactly if the slugs are: those of the entries whose octets are saved, of the entries saved
as JSON and the dimension asked about, and of the networks. -/
theorem nodup_names_iff {done : List (Errand × Response)} {graphs : List String}
    (hdone : done.map Prod.fst <+: agenda q graphs) :
    ((done.flatMap fun d => d.1.files q d.2).map Prod.fst).Nodup ↔
      (∀ r, (Errand.snapshot, r) ∈ done → (octetSlugs q r).Nodup ∧ dimensionSlug q ∉ jsonSlugs q r) ∧
        (done.filterMap fun d => d.1.network?).Nodup := by
  have hapart : done.Pairwise fun d d' => Apart d.1 d'.1 :=
    List.pairwise_map.mp ((apart_agenda q graphs).sublist hdone.sublist)
  rw [List.map_flatMap, List.nodup_flatMap, List.Nodup, List.pairwise_filterMap]
  refine and_congr ?_ ?_
  · constructor
    · exact fun h r hr => (nodup_names_snapshot_iff r).mp (h _ hr)
    · rintro h ⟨t, r⟩ hd
      cases t with
      | snapshot => exact (nodup_names_snapshot_iff r).mpr (h r hd)
      | _ => exact List.nodup_singleton _
  · constructor
    · exact fun h => (hapart.and h).imp fun hd => (disjoint_names_iff hd.1).mp hd.2
    · exact fun h => (hapart.and h).imp fun hd => (disjoint_names_iff hd.1).mpr hd.2

end

end TransitLink.Probe.Suite
