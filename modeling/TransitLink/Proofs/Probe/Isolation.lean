import TransitLink.Proofs.Probe.FileNames
import TransitLink.Proofs.Probe.Saving
import TransitLink.Proofs.Snapshot.Blob
import TransitLink.Proofs.Snapshot.Entries

/-!
# Entries stand alone

* `FiledUnder` : the dimension that an entry is filed under.
* `Leaves` : the files that one item of a list of snapshots leaves, whatever stands beside it. `leaves_iff` : there is one
  answer for each item.
* `run_snapshot` : the files of a snapshot response are those of its items, one after the other.
* `entries_stand_alone` : hence what an item leaves does not depend on others, down to the octets of its files.
-/

namespace TransitLink.Probe.Suite

set_option autoImplicit false

open Snapshot (IsEntry Entry Blob listed unpack render)

/-! ## What an item leaves -/

/-- An entry of the dimension `own` is filed under this one where `asked` is asked about. An empty name is none. -/
inductive FiledUnder (asked own : Option String) : String → Prop where
  | own {d : String} : own = some d → d ≠ "" → FiledUnder asked own d
  | asked {d : String} : (∀ d', own = some d' → d' = "") → asked = some d → d ≠ "" → FiledUnder asked own d
  | unknown : (∀ d', own = some d' → d' = "") → (∀ d', asked = some d' → d' = "") → FiledUnder asked own "unknown"

/-- An item of a list of snapshots leaves these files. -/
inductive Leaves (q : RailwayQuery) : Json → List (String × Content) → Prop where
  /-- It has not the shape of an entry. -/
  | shapeless {j : Json} : (∀ e, ¬ IsEntry j e) → Leaves q j []
  /-- There is no payload. -/
  | bare {j : Json} {e : Entry} : IsEntry j e → e.payload = none → Leaves q j []
  /-- The payload is not the base64 of anything. -/
  | garbled {j : Json} {e : Entry} {blob : Blob} : IsEntry j e → e.payload = some blob →
      (∀ bs, (Text.trim blob.text).toList ≠ Base64.standard bs) → Leaves q j []
  /-- The payload is the base64 of octets that no snapshot is packed in. -/
  | unpacked {j : Json} {e : Entry} {blob : Blob} {bs : Bytes} {fault : Snapshot.UnpackFault} {d : String} :
      IsEntry j e → e.payload = some blob → (Text.trim blob.text).toList = Base64.standard bs →
      FiledUnder q.dimension e.dimension d → unpack bs = .error fault →
      Leaves q j [("mtr_railway_snapshot_" ++ slug d ++ ".msgpack", .octets bs)]
  | whole {j : Json} {e : Entry} {blob : Blob} {bs : Bytes} {v : Snapshot} {d : String} :
      IsEntry j e → e.payload = some blob → (Text.trim blob.text).toList = Base64.standard bs →
      FiledUnder q.dimension e.dimension d → unpack bs = .ok v →
      Leaves q j [("mtr_railway_snapshot_" ++ slug d ++ ".msgpack", .octets bs),
        ("mtr_railway_snapshot_" ++ slug d ++ ".json", .document (render true v))]

def itemFiles (q : RailwayQuery) (j : Json) : List (String × Content) :=
  match Entry.ofJson j with
  | .ok e => entryFiles q e
  | .error _ => []

variable {q : RailwayQuery}

theorem exists_filedUnder (asked own : Option String) : ∃ d, FiledUnder asked own d := by
  have hnone : ∀ {name : Option String}, (¬ ∃ d, name = some d ∧ d ≠ "") → ∀ d, name = some d → d = "" :=
    fun hname d hd => by_contra fun hne => hname ⟨d, hd, hne⟩
  by_cases hown : ∃ d, own = some d ∧ d ≠ ""
  · obtain ⟨d, hd, hne⟩ := hown
    exact ⟨d, .own hd hne⟩
  · by_cases hasked : ∃ d, asked = some d ∧ d ≠ ""
    · obtain ⟨d, hd, hne⟩ := hasked
      exact ⟨d, .asked (hnone hown) hd hne⟩
    · exact ⟨_, .unknown (hnone hown) (hnone hasked)⟩

theorem entryDimension_of_filedUnder {e : Entry} {d : String} (h : FiledUnder q.dimension e.dimension d) :
    entryDimension q e = d := by
  have hfound : ∀ {d' : String} (names : List String), d' ≠ "" → (d' :: names).find? (· ≠ "") = some d' :=
    fun names hne => List.find?_cons_of_pos (decide_eq_true hne)
  -- a name that is none is passed over
  have hpassed : ∀ {name : Option String} (names : List (Option String)), (∀ d', name = some d' → d' = "") →
      ((name :: names).filterMap id).find? (· ≠ "") = (names.filterMap id).find? (· ≠ "") := by
    intro name names hname
    cases name with
    | none => rfl
    | some d' =>
      obtain rfl := hname d' rfl
      rfl
  cases h with
  | own hown hne =>
    rw [entryDimension, hown]
    exact congrArg (Option.getD · "unknown") (hfound _ hne)
  | asked hown hasked hne =>
    rw [entryDimension, hpassed _ hown, hasked]
    exact congrArg (Option.getD · "unknown") (hfound _ hne)
  | unknown hown hasked =>
    rw [entryDimension, hpassed _ hown, hpassed _ hasked]
    rfl

theorem filedUnder_iff {e : Entry} {d : String} :
    FiledUnder q.dimension e.dimension d ↔ entryDimension q e = d := by
  refine ⟨entryDimension_of_filedUnder, ?_⟩
  rintro rfl
  obtain ⟨d, h⟩ := exists_filedUnder q.dimension e.dimension
  rwa [entryDimension_of_filedUnder h]

theorem itemFiles_of_isEntry {j : Json} {e : Entry} (h : IsEntry j e) : itemFiles q j = entryFiles q e := by
  rw [itemFiles, Snapshot.isEntry_iff.mp h]

theorem entryFiles_of_octets {e : Entry} {blob : Blob} {bs : Bytes} (hpayload : e.payload = some blob)
    (hbs : blob.octets = .ok bs) {d : String} (hd : entryDimension q e = d) :
    entryFiles q e = ("mtr_railway_snapshot_" ++ slug d ++ ".msgpack", .octets bs) ::
      ((unpack bs).toOption.map fun v =>
        ("mtr_railway_snapshot_" ++ slug d ++ ".json", Content.document (render true v))).toList := by
  have hjson : (blob.toJson true).toOption = (unpack bs).toOption.map (render true) := by
    rw [Blob.toJson, Blob.decode, hbs]
    cases hunpack : unpack bs <;> simp [hunpack, bind, Except.bind, Except.mapError, Except.toOption]
  rw [entryFiles, octetsOf?, jsonOf?, hpayload, Option.bind_some, Option.bind_some, hbs, hjson, Option.map_map, ← hd]
  rfl

theorem itemFiles_of_leaves {j : Json} {fs : List (String × Content)} (h : Leaves q j fs) : itemFiles q j = fs := by
  cases h with
  | shapeless hshape =>
    rw [itemFiles]
    cases hentry : Entry.ofJson j with
    | error _ => rfl
    | ok e => exact absurd (Snapshot.isEntry_iff.mpr hentry) (hshape e)
  | bare hentry hpayload =>
    rw [itemFiles_of_isEntry hentry, entryFiles, octetsOf?, hpayload]
    rfl
  | @garbled e blob hentry hpayload hgarbled =>
    rw [itemFiles_of_isEntry hentry, entryFiles, octetsOf?, hpayload, Option.bind_some]
    cases hoctets : blob.octets with
    | error _ => rfl
    | ok bs => exact absurd (Blob.octets_eq_ok_iff.mp hoctets) (hgarbled bs)
  | unpacked hentry hpayload hbs hd hfault =>
    rw [itemFiles_of_isEntry hentry,
      entryFiles_of_octets hpayload (Blob.octets_eq_ok_iff.mpr hbs) (filedUnder_iff.mp hd), hfault]
    rfl
  | whole hentry hpayload hbs hd hv =>
    rw [itemFiles_of_isEntry hentry,
      entryFiles_of_octets hpayload (Blob.octets_eq_ok_iff.mpr hbs) (filedUnder_iff.mp hd), hv]
    rfl

theorem exists_leaves (q : RailwayQuery) (j : Json) : ∃ fs, Leaves q j fs := by
  cases hentry : Entry.ofJson j with
  | error _ =>
    refine ⟨[], .shapeless fun e he => ?_⟩
    rw [Snapshot.isEntry_iff.mp he] at hentry
    cases hentry
  | ok e =>
    have he : IsEntry j e := Snapshot.isEntry_iff.mpr hentry
    have hd : FiledUnder q.dimension e.dimension (entryDimension q e) := filedUnder_iff.mpr rfl
    cases hpayload : e.payload with
    | none => exact ⟨_, .bare he hpayload⟩
    | some blob =>
      cases hoctets : blob.octets with
      | error _ =>
        refine ⟨_, .garbled he hpayload fun bs hbs => ?_⟩
        rw [Blob.octets_eq_ok_iff.mpr hbs] at hoctets
        cases hoctets
      | ok bs =>
        have hbs := Blob.octets_eq_ok_iff.mp hoctets
        cases hunpack : unpack bs with
        | error _ => exact ⟨_, .unpacked he hpayload hbs hd hunpack⟩
        | ok v => exact ⟨_, .whole he hpayload hbs hd hunpack⟩

/-- For each item there is one answer. -/
theorem leaves_iff {j : Json} {fs : List (String × Content)} : Leaves q j fs ↔ itemFiles q j = fs := by
  refine ⟨itemFiles_of_leaves, ?_⟩
  rintro rfl
  obtain ⟨fs, h⟩ := exists_leaves q j
  rwa [itemFiles_of_leaves h]

theorem forall₂_leaves_iff {js : List Json} {fss : List (List (String × Content))} :
    List.Forall₂ (Leaves q) js fss ↔ fss = js.map (itemFiles q) := by
  have hleaves : Leaves q = fun j fs => itemFiles q j = fs := funext fun _ => funext fun _ => propext leaves_iff
  rw [hleaves, ← List.forall₂_map_left_iff, List.forall₂_eq_eq_eq, eq_comm]

/-! ## A snapshot response -/

theorem course_snapshot {answers : Nat → Except Failure Response} {k : Nat} {r : Response} (h : answers k = .ok r) :
    (snapshot q).course answers k = (Errand.snapshot.happenings q r, .ok ()) := by
  have hcourse : (snapshot q ++ .done).course answers k = course q answers k [.snapshot] := by
    rw [snapshot, payload_eq]
    exact course_errand (t := .snapshot) fun r _ => Plan.course_notes ..
  rw [Plan.append_done] at hcourse
  rw [hcourse, course, h]
  exact congrArg (·, Except.ok ()) (List.append_nil _)

/-- The file of a snapshot response itself. -/
def responseFile (q : RailwayQuery) (r : Response) : String × Content :=
  ("mtr_railway_snapshot_" ++ dimensionSlug q ++ ".json", .document r.toJson)

theorem files_snapshot (r : Response) :
    files (Errand.snapshot.happenings q r) = responseFile q r :: ((listed r.payload).map (itemFiles q)).flatten := by
  rw [files_happenings, ← List.flatMap_def]
  exact congrArg (responseFile q r :: ·) (Snapshot.flatMap_entries (entryFiles q) r.payload)

/-- The files of a snapshot response are written up to the first one that is refused. -/
theorem run_snapshot {σ : Type} (peer : Peer σ) {record : Record σ} {r : Response}
    (hanswer : peer.answers (requests record.log).length = .ok r) :
    ∃ log, ((snapshot q).run peer.host.toStage record).2.log = record.log ++ log ∧
      peer.Moves record.place log ((snapshot q).run peer.host.toStage record).2.place ∧
      files log <+: responseFile q r :: ((listed r.payload).map (itemFiles q)).flatten ∧
      (((snapshot q).run peer.host.toStage record).1 = .ok () →
        files log = responseFile q r :: ((listed r.payload).map (itemFiles q)).flatten) ∧
      ((∀ name content t, .refused name content t ∉ log) → ((snapshot q).run peer.host.toStage record).1 = .ok ()) := by
  obtain ⟨d, hd, htook⟩ := peer.run_course (snapshot q) record
  rw [course_snapshot hanswer] at hd
  rw [← files_snapshot]
  refine ⟨d.1, htook.log, htook.moves, hd.filterMap_prefix fun _ _ _ => rfl, fun hok => ?_, fun hwritten => ?_⟩
  · rw [hd.eq_of_ok (htook.result.symm.trans hok)]
  · rw [htook.result, hd.eq_of_written hwritten]

theorem isName_of_mem_snapshot {f : String × Content} {r : Response}
    (hf : f ∈ responseFile q r :: ((listed r.payload).map (itemFiles q)).flatten) : Route.IsName f.1 := by
  rw [← files_snapshot, files_happenings] at hf
  exact isName_of_mem_files hf

/-- **Entries stand alone.** Each item of a list of snapshots leaves files that depend on the item and on the dimension asked
about, and on nothing else: none if it has not the shape of an entry, has no payload, or the payload is not base64; the
octets alone if no snapshot is packed in them; else the octets and, after them, the snapshot as JSON. In whatever state a
snapshot response is received, its own file is written first, and then the files of its items, one item after the other in
the order of the list. They are all written, and the errand ends well, unless a file is refused; and none is if writing
never fails. Where files are kept below a directory of a tree and the errand ends well, these files are saved there one
after the other: each holds the octets of the item, or the text of the snapshot under the time. -/
theorem entries_stand_alone (q : RailwayQuery) (r : Response) :
    (∀ j, ∃! fs, Leaves q j fs) ∧
    ∃ fss : List (List (String × Content)), List.Forall₂ (Leaves q) (listed r.payload) fss ∧
      (∀ {σ : Type} (peer : Peer σ) (record : Record σ), peer.answers (requests record.log).length = .ok r →
        ∃ log : List Happening,
          ((snapshot q).run peer.host.toStage record).2.log = record.log ++ log ∧
          peer.Moves record.place log ((snapshot q).run peer.host.toStage record).2.place ∧
          files log <+: responseFile q r :: fss.flatten ∧
          ((∀ name content t, .refused name content t ∉ log) →
            ((snapshot q).run peer.host.toStage record).1 = .ok () ∧ files log = responseFile q r :: fss.flatten) ∧
          ((∀ name content s, (peer.write name content s).1 = .ok ()) →
            ∀ name content t, .refused name content t ∉ log)) ∧
      ∀ greeting answers dir stamps (record : Record (FileTree × Nat)),
        answers (requests record.log).length = .ok r →
        ((snapshot q).run (Peer.onDisk greeting answers dir stamps).host.toStage record).1 = .ok () →
        ∃ written : List (String × Bytes),
          List.Forall₂ (fun f w => w.1 = f.1 ∧ ∃ k, Stored (stamps k) f.2 w.2) (responseFile q r :: fss.flatten) written ∧
          record.place.1.Saved dir written
            ((snapshot q).run (Peer.onDisk greeting answers dir stamps).host.toStage record).2.place.1 := by
  refine ⟨fun j => ⟨itemFiles q j, leaves_iff.mpr rfl, fun fs h => (leaves_iff.mp h).symm⟩, _,
    forall₂_leaves_iff.mpr rfl, fun peer record hanswer => ?_, fun greeting answers dir stamps record hanswer hok => ?_⟩
  · obtain ⟨log, hlog, hmoves, hprefix, hall, hend⟩ := run_snapshot peer hanswer
    exact ⟨log, hlog, hmoves, hprefix, fun hwritten => ⟨hend hwritten, hall (hend hwritten)⟩, hmoves.forall_written⟩
  · obtain ⟨log, -, hmoves, -, hall, -⟩ := run_snapshot (Peer.onDisk greeting answers dir stamps) hanswer
    have hfiles := hall hok
    obtain ⟨written, hwritten, hsaved⟩ := hmoves.saved fun f hf => isName_of_mem_snapshot (hfiles ▸ hf)
    rw [hfiles] at hwritten
    refine ⟨written, hwritten.imp ?_, hsaved⟩
    rintro f _ ⟨k, rfl⟩
    exact ⟨rfl, k, stored_octets _ _⟩

/-- A response with a number among its snapshots, an entry without a payload, one whose payload is not base64, one with
octets that end too early, and one of no dimension with a packed null. -/
def mixedResponse : Response where
  requestId := ""
  result := some "OK"
  message := none
  payload? := some (.obj [("snapshots", .arr [
    .int 7,
    .obj [("dimension", .str "a")],
    .obj [("dimension", .str "b"), ("payload", .str "!")],
    .obj [("dimension", .str "c:d"), ("payload", .str "kQ==")],
    .obj [("dimension", .str ""), ("payload", .str " wA==")]])])
  extra := []

def emptyPlace : FileTree × Nat := (⟨[(["out"], .directory)], []⟩, 0)

/-- How a snapshot of the dimension `e` ends if that is the response and its files are kept in the directory. -/
def mixedRun : Except Trouble Unit × Record (FileTree × Nat) :=
  (snapshot ⟨some "e", 0, none, none, 0⟩).run
    (Peer.onDisk (.ok ()) (fun _ => .ok mixedResponse) "out" fun _ => "noon").host.toStage ⟨emptyPlace, []⟩

/-- The last entry is written as if it stood alone. -/
theorem last_entry_among_bad_ones : mixedRun.1 = .ok () ∧ ∃ first last,
    Json.Writes first (.obj [("timestamp", .str "noon"), ("data", mixedResponse.toJson)]) ∧
    Json.Writes last (.obj [("timestamp", .str "noon"), ("data", .null)]) ∧
    emptyPlace.1.Saved "out" [("mtr_railway_snapshot_e.json", first ++ [0x0a]), ("mtr_railway_snapshot_c_d.msgpack", [0x91]),
      ("mtr_railway_snapshot_e.msgpack", [0xc0]), ("mtr_railway_snapshot_e.json", last ++ [0x0a])] mixedRun.2.place.1 := by
  have hok : mixedRun.1 = .ok () := by decide +kernel
  obtain ⟨-, fss, hitems, -, hdisk⟩ := entries_stand_alone ⟨some "e", 0, none, none, 0⟩ mixedResponse
  obtain ⟨written, hwritten, hsaved⟩ := hdisk _ _ "out" (fun _ => "noon") ⟨emptyPlace, []⟩ rfl hok
  have hfiles : responseFile ⟨some "e", 0, none, none, 0⟩ mixedResponse :: fss.flatten =
      [("mtr_railway_snapshot_e.json", .document mixedResponse.toJson), ("mtr_railway_snapshot_c_d.msgpack", .octets [0x91]),
        ("mtr_railway_snapshot_e.msgpack", .octets [0xc0]), ("mtr_railway_snapshot_e.json", .document .null)] := by
    rw [forall₂_leaves_iff.mp hitems]
    rfl
  rw [hfiles] at hwritten
  obtain _ | @⟨_, ⟨_, _⟩, _, _, ⟨rfl, -, _ | ⟨hfirst⟩⟩, hwritten⟩ := hwritten
  obtain _ | @⟨_, ⟨_, _⟩, _, _, ⟨rfl, -, ⟨⟩⟩, hwritten⟩ := hwritten
  obtain _ | @⟨_, ⟨_, _⟩, _, _, ⟨rfl, -, ⟨⟩⟩, hwritten⟩ := hwritten
  obtain _ | @⟨_, ⟨_, _⟩, _, _, ⟨rfl, -, _ | ⟨hlast⟩⟩, ⟨⟩⟩ := hwritten
  exact ⟨hok, _, _, hfirst, hlast, hsaved⟩

end TransitLink.Probe.Suite
