import TransitLink.Proofs.Snapshot.Blob

/-!
# Snapshots that are cut short

* `Takes` : a reader takes some octets for a value, whatever follows them, and misses them if they are cut short.
* `Exact` : a reader that takes what it uses up. `exact_andThen`, `exact_readMany` : what is read by exact readers one
  after the other is read exactly. `exact_read` : so are snapshots.
* `Extends` : a reader that reads all that another one reads. `extends_read` : deeper nesting is no hindrance to what is
  read without.
* `truncated_is_refused` : a snapshot that is cut short is refused, wherever it is cut.
-/

namespace TransitLink.Snapshot

set_option autoImplicit false

def UnpackFault.IsEnd : UnpackFault → Prop
  | endAtMarker => True
  | endInHeader => True
  | endInContent => True
  | reserved => False
  | tooDeep => False

section
variable {α β : Type}

/-- The reader takes the octets for the value, whatever follows them. If they are cut short, it meets their end. -/
structure Takes (r : Reader α) (used : Bytes) (a : α) : Prop where
  whole : ∀ rest, r (used ++ rest) = .ok (a, rest)
  short : ∀ (front : Bytes) (b : UInt8) (back : Bytes), used = front ++ b :: back →
    ∃ fault, r front = .error fault ∧ fault.IsEnd

/-- The reader takes what it uses up, and looks no further. -/
def Exact (r : Reader α) : Prop :=
  ∀ bs a rest, r bs = .ok (a, rest) → ∃ used, bs = used ++ rest ∧ Takes r used a

def Reader.andThen (r : Reader α) (next : α → Reader β) : Reader β := fun bs => do
  let (a, bs) ← r bs
  next a bs

theorem Takes.refuses {r : Reader α} {used front : Bytes} {a : α} (h : Takes r used a) (hfront : front <+: used)
    (hshort : front.length < used.length) : ∃ fault, r front = .error fault ∧ fault.IsEnd := by
  obtain ⟨back, rfl⟩ := hfront
  cases back with
  | nil => simp at hshort
  | cons b back => exact h.short front b back rfl

/-! ## Steps that read nothing -/

theorem exact_done (a : α) : Exact fun bs => .ok (a, bs) := by
  intro bs a' rest h
  cases h
  refine ⟨[], rfl, fun rest => rfl, fun front b back hcut => ?_⟩
  have hlength := congrArg List.length hcut
  simp at hlength

theorem exact_refusal (fault : UnpackFault) : Exact fun _ => (.error fault : Except UnpackFault (α × Bytes)) := by
  intro bs a rest h
  cases h

/-! ## One after the other -/

theorem Takes.andThen {r : Reader α} {next : α → Reader β} {used used' : Bytes} {a : α} {b : β} (h : Takes r used a)
    (h' : Takes (next a) used' b) : Takes (r.andThen next) (used ++ used') b where
  whole rest := by
    rw [List.append_assoc, Reader.andThen, h.whole]
    exact h'.whole rest
  short front c back hcut := by
    -- cut inside what the first reader takes, or behind it
    rcases List.append_eq_append_iff.mp hcut with ⟨between, hfront, hback⟩ | ⟨between, hused, hback⟩
    · obtain ⟨fault, hfault, hend⟩ := h'.short between c back hback
      refine ⟨fault, ?_, hend⟩
      rw [hfront, Reader.andThen, h.whole]
      exact hfault
    · cases between with
      | nil =>
        rw [List.append_nil] at hused
        obtain ⟨fault, hfault, hend⟩ := h'.short [] c back hback.symm
        refine ⟨fault, ?_, hend⟩
        have hwhole := h.whole []
        rw [List.append_nil, hused] at hwhole
        rw [Reader.andThen, hwhole]
        exact hfault
      | cons c' between =>
        obtain ⟨fault, hfault, hend⟩ := h.short front c' between hused
        refine ⟨fault, ?_, hend⟩
        rw [Reader.andThen, hfault]
        rfl

/-- What exact readers read one after the other is read exactly. -/
theorem exact_andThen {r : Reader α} {next : α → Reader β} (hr : Exact r) (hnext : ∀ a, Exact (next a)) :
    Exact (r.andThen next) := by
  intro bs b rest h
  obtain ⟨⟨a, bs'⟩, ha, hb⟩ := bind_eq_ok_iff.mp h
  obtain ⟨used, rfl, htakes⟩ := hr bs a bs' ha
  obtain ⟨used', rfl, htakes'⟩ := hnext a bs' b rest hb
  exact ⟨used ++ used', (List.append_assoc ..).symm, htakes.andThen htakes'⟩

/-- So many octets are read exactly. -/
theorem exact_split (n : Nat) (f : Bytes → α) {fault : UnpackFault} (hfault : fault.IsEnd) :
    Exact fun bs => match bs.split? n with
      | some (ds, rest) => .ok (f ds, rest)
      | none => .error fault := by
  intro bs a rest h
  simp only [Bytes.split?_eq] at h
  by_cases hn : n ≤ bs.length
  · simp only [if_pos hn, Except.ok.injEq, Prod.mk.injEq] at h
    obtain ⟨rfl, rfl⟩ := h
    have hlength : (bs.take n).length = n := List.length_take_of_le hn
    refine ⟨bs.take n, (List.take_append_drop n bs).symm, fun rest => ?_, fun front b back hcut => ?_⟩
    · have hle : n ≤ (bs.take n ++ rest).length := by
        rw [List.length_append, hlength]
        omega
      simp only [Bytes.split?_eq, if_pos hle, List.take_left' hlength, List.drop_left' hlength]
    · have hshort : ¬ n ≤ front.length := by
        rw [hcut, List.length_append, List.length_cons] at hlength
        omega
      refine ⟨fault, ?_, hfault⟩
      simp only [Bytes.split?_eq, if_neg hshort]
  · simp [if_neg hn] at h

theorem exact_readNatural (width : Nat) : Exact (readNatural width) := exact_split width Bytes.ofBigEndian trivial

theorem exact_readContent (n : Nat) : Exact (readContent n) := exact_split n id trivial

theorem exact_readExtent (size : Extent) : Exact (readExtent size) := by
  cases size with
  | known n => exact exact_done n
  | field width => exact exact_readNatural width

theorem readMany_succ (item : Reader α) (done : List α) (n : Nat) :
    readMany item done (n + 1) = item.andThen fun a => readMany item (a :: done) n := by
  funext bs
  rw [readMany, Reader.andThen]
  cases item bs <;> rfl

theorem exact_readMany {item : Reader α} (hitem : Exact item) (n : Nat) (done : List α) : Exact (readMany item done n) := by
  induction n generalizing done with
  | zero => exact exact_done done.reverse
  | succ n ih =>
    rw [readMany_succ]
    exact exact_andThen hitem fun a => ih (a :: done)

end

/-! ## Values -/

theorem exact_readEntry {item : Reader Snapshot} (hitem : Exact item) : Exact (readEntry item) :=
  exact_andThen hitem fun k => exact_andThen hitem fun v => exact_done (k, v)

/-- A length, and the octets or items that it counts. -/
theorem exact_counted {α : Type} (size : Extent) {next : Nat → Reader α} (hnext : ∀ n, Exact (next n)) :
    Exact ((readExtent size).andThen next) :=
  exact_andThen (exact_readExtent size) hnext

theorem exact_readAfter {item : Option (Reader Snapshot)} (hitem : ∀ r, item = some r → Exact r) (marker : Marker) :
    Exact (readAfter item marker) := by
  cases marker with
  | nil => exact exact_done nil
  | boolean b => exact exact_done (boolean b)
  | small n => exact exact_done (integer n)
  | natural width => exact exact_andThen (exact_readNatural width) fun n => exact_done (integer n)
  | signed width =>
    exact exact_andThen (exact_readNatural width) fun n => exact_done (integer (Bytes.signed (8 * width) n))
  | single => exact exact_andThen (exact_readNatural 4) fun n => exact_done (float (Double.ofSingleBits n))
  | double => exact exact_andThen (exact_readNatural 8) fun n => exact_done (float ⟨.ofNat n⟩)
  | text size => exact exact_counted size fun n => exact_andThen (exact_readContent n) fun ds => exact_done (ofContent ds)
  | binary size => exact exact_counted size fun n => exact_andThen (exact_readContent n) fun ds => exact_done (binary ds)
  | list count =>
    cases item with
    | none => exact exact_counted count fun _ => exact_refusal .tooDeep
    | some r =>
      exact exact_counted count fun n =>
        exact_andThen (exact_readMany (hitem r rfl) n []) fun items => exact_done (sequence items)
  | map count =>
    cases item with
    | none => exact exact_counted count fun _ => exact_refusal .tooDeep
    | some r =>
      exact exact_counted count fun n =>
        exact_andThen (exact_readMany (exact_readEntry (hitem r rfl)) n []) fun es => exact_done (ofEntries es)
  | extension size =>
    cases item with
    | none => exact exact_counted size fun _ => exact_refusal .tooDeep
    | some r =>
      exact exact_counted size fun n => exact_andThen (exact_readNatural 1) fun type =>
        exact_andThen (exact_readContent n) fun ds => exact_done (sequence [integer (Bytes.signed 8 type), binary ds])
  | reserved => exact exact_refusal .reserved

theorem exact_readWith {item : Option (Reader Snapshot)} (hitem : ∀ r, item = some r → Exact r) :
    Exact (readWith item) := by
  intro bs v rest h
  cases bs with
  | nil => cases h
  | cons b bs =>
    obtain ⟨used, rfl, htakes⟩ := exact_readAfter hitem (Marker.ofOctet b) bs v rest h
    refine ⟨b :: used, rfl, htakes.whole, fun front c back hcut => ?_⟩
    cases front with
    | nil => exact ⟨.endAtMarker, rfl, trivial⟩
    | cons b' front =>
      obtain ⟨rfl, hused⟩ := List.cons.inj hcut
      exact htakes.short front c back hused

/-- **Snapshots are read exactly.** -/
theorem exact_read (depth : Nat) : Exact (read depth) := by
  induction depth with
  | zero => exact exact_readWith fun r hr => (by cases hr)
  | succ depth ih =>
    refine exact_readWith fun r hr => ?_
    cases hr
    exact ih

/-! ## Deeper nesting -/

/-- The second reader reads all that the first one reads, and makes the same of it. -/
def Extends {α : Type} (r r' : Reader α) : Prop := ∀ bs x, r bs = .ok x → r' bs = .ok x

section
variable {α β : Type}

theorem Extends.refl (r : Reader α) : Extends r r := fun _ _ h => h

theorem Extends.andThen {r r' : Reader α} {next next' : α → Reader β} (h : Extends r r')
    (hnext : ∀ a, Extends (next a) (next' a)) : Extends (r.andThen next) (r'.andThen next') := by
  intro bs x hx
  obtain ⟨⟨a, bs'⟩, ha, hx⟩ := bind_eq_ok_iff.mp hx
  exact bind_eq_ok_iff.mpr ⟨(a, bs'), h bs _ ha, hnext a bs' x hx⟩

theorem extends_readMany {item item' : Reader α} (h : Extends item item') (n : Nat) (done : List α) :
    Extends (readMany item done n) (readMany item' done n) := by
  induction n generalizing done with
  | zero => exact .refl _
  | succ n ih =>
    rw [readMany_succ, readMany_succ]
    exact h.andThen fun a => ih (a :: done)

end

theorem extends_readEntry {item item' : Reader Snapshot} (h : Extends item item') :
    Extends (readEntry item) (readEntry item') :=
  h.andThen fun k => h.andThen fun v => .refl fun bs => .ok ((k, v), bs)

theorem extends_readAfter {item item' : Option (Reader Snapshot)}
    (h : ∀ r, item = some r → ∃ r', item' = some r' ∧ Extends r r') (marker : Marker) :
    Extends (readAfter item marker) (readAfter item' marker) := by
  have hrefused : ∀ (size : Extent) (r : Reader Snapshot),
      Extends ((readExtent size).andThen fun _ _ => .error .tooDeep) r := by
    intro size r bs x hx
    obtain ⟨_, -, hx⟩ := bind_eq_ok_iff.mp hx
    cases hx
  cases marker with
  | list count =>
    cases item with
    | none => exact hrefused count _
    | some r =>
      obtain ⟨r', rfl, hr⟩ := h r rfl
      exact (Extends.refl (readExtent count)).andThen fun n => (extends_readMany hr n []).andThen fun items =>
        .refl fun bs => .ok (sequence items, bs)
  | map count =>
    cases item with
    | none => exact hrefused count _
    | some r =>
      obtain ⟨r', rfl, hr⟩ := h r rfl
      exact (Extends.refl (readExtent count)).andThen fun n =>
        (extends_readMany (extends_readEntry hr) n []).andThen fun es => .refl fun bs => .ok (ofEntries es, bs)
  | extension size =>
    cases item with
    | none => exact hrefused size _
    | some r =>
      obtain ⟨r', rfl, -⟩ := h r rfl
      exact .refl _
  | _ => exact .refl _

theorem extends_readWith {item item' : Option (Reader Snapshot)}
    (h : ∀ r, item = some r → ∃ r', item' = some r' ∧ Extends r r') : Extends (readWith item) (readWith item') := by
  intro bs x hx
  cases bs with
  | nil => cases hx
  | cons b bs => exact extends_readAfter h (Marker.ofOctet b) bs x hx

/-- What is read at one depth is read at every greater depth. -/
theorem extends_read {depth depth' : Nat} (h : depth ≤ depth') : Extends (read depth) (read depth') := by
  have hsucc : ∀ depth, Extends (read depth) (read (depth + 1)) := by
    intro depth
    induction depth with
    | zero => exact extends_readWith fun r hr => (by cases hr)
    | succ depth ih =>
      refine extends_readWith fun r hr => ?_
      cases hr
      exact ⟨read (depth + 1), rfl, ih⟩
  induction h with
  | refl => exact .refl _
  | step _ ih => exact fun bs x hx => hsucc _ bs x (ih bs x hx)

/-! ## Snapshots that are cut short -/

theorem unpack_eq_ok_iff {bs : Bytes} {v : Snapshot} : unpack bs = .ok v ↔ ∃ rest, read maxDepth bs = .ok (v, rest) := by
  unfold unpack
  cases read maxDepth bs <;> simp [Except.map, Prod.ext_iff]

theorem unpack_eq_error_iff {bs : Bytes} {fault : UnpackFault} :
    unpack bs = .error fault ↔ read maxDepth bs = .error fault := by
  unfold unpack
  cases read maxDepth bs <;> simp [Except.map]

theorem refused_of_error {bs : Bytes} {fault : UnpackFault} (h : unpack bs = .error fault) :
    (unpack bs).mapError Failure.ofUnpackFault = .error (.snapshotDecode fault.message) := by
  rw [h]
  rfl

/-- What is written meets its end if it is cut short, however deep it nests. -/
theorem Packable.takes {v : Snapshot} (h : Packable v) {depth : Nat} (hdepth : nesting v ≤ depth) :
    Takes (read depth) (octets v) (canonical v) := by
  have hread := read_octets v h.sized h.unpackable? depth hdepth []
  rw [List.append_nil] at hread
  obtain ⟨used, hused, htakes⟩ := exact_read depth _ _ _ hread
  rw [List.append_nil] at hused
  rwa [hused]

/-- **A snapshot that is cut short is refused.** If some octets give a value, a first part of them is used up, which gives
that value whatever follows it; cut anywhere inside this part, the octets are refused as a snapshot that ends too early.
And however deep a value that has a packed form nests, its packed form is refused if it is cut anywhere. -/
theorem truncated_is_refused :
    (∀ (bs : Bytes) (v : Snapshot), unpack bs = .ok v → ∃ used rest, bs = used ++ rest ∧
      read maxDepth bs = .ok (v, rest) ∧ (∀ more, unpack (used ++ more) = .ok v) ∧
      ∀ front, front <+: bs → front.length < used.length → ∃ fault : UnpackFault, fault.IsEnd ∧
        (unpack front).mapError Failure.ofUnpackFault = .error (.snapshotDecode fault.message)) ∧
    ∀ v, Packable v → ∃ bs, pack v = .ok bs ∧ ∀ front, front <+: bs → front.length < bs.length →
      ∃ reason, (unpack front).mapError Failure.ofUnpackFault = .error (.snapshotDecode reason) := by
  refine ⟨fun bs v h => ?_, fun v hv => ⟨octets v, ?_, fun front hfront hshort => ?_⟩⟩
  · obtain ⟨rest, hread⟩ := unpack_eq_ok_iff.mp h
    obtain ⟨used, rfl, htakes⟩ := exact_read maxDepth bs v rest hread
    refine ⟨used, rest, rfl, hread, fun more => unpack_eq_ok_iff.mpr ⟨more, htakes.whole more⟩,
      fun front hfront hshort => ?_⟩
    have hused : front <+: used :=
      List.prefix_of_prefix_length_le hfront (List.prefix_append used rest) (Nat.le_of_lt hshort)
    obtain ⟨fault, hfault, hend⟩ := htakes.refuses hused hshort
    exact ⟨fault, hend, refused_of_error (unpack_eq_error_iff.mpr hfault)⟩
  · rw [pack, hv.unpackable?]
  · -- a reader that allows for the nesting meets the end, so one that allows for less accepts nothing either
    obtain ⟨fault, hfault, -⟩ := (hv.takes (Nat.le_max_left (nesting v) maxDepth)).refuses hfront hshort
    cases hunpack : unpack front with
    | error fault' => exact ⟨_, rfl⟩
    | ok u =>
      obtain ⟨rest, hread⟩ := unpack_eq_ok_iff.mp hunpack
      have hdeeper := extends_read (Nat.le_max_right (nesting v) maxDepth) front _ hread
      rw [hfault] at hdeeper
      cases hdeeper

/-- A record with a list, and one octet too many: cut inside the list, it is refused. -/
theorem list_is_cut_short :
    unpack [0x81, 0xa1, 0x6b, 0x92, 0x01, 0xc0, 0xc1] = .ok (record [("k", sequence [integer 1, nil])]) ∧
      ∃ fault : UnpackFault, fault.IsEnd ∧
        (unpack [0x81, 0xa1, 0x6b, 0x92, 0x01]).mapError Failure.ofUnpackFault =
          .error (.snapshotDecode fault.message) := by
  have hunpack : unpack [0x81, 0xa1, 0x6b, 0x92, 0x01, 0xc0, 0xc1] =
      .ok (record [("k", sequence [integer 1, nil])]) := rfl
  obtain ⟨used, rest, hsplit, hread, -, hcut⟩ := truncated_is_refused.1 _ _ hunpack
  have hrest : (read maxDepth [0x81, 0xa1, 0x6b, 0x92, 0x01, 0xc0, 0xc1]).map Prod.snd = .ok [0xc1] := rfl
  rw [hread] at hrest
  obtain rfl : rest = [0xc1] := Except.ok.inj hrest
  have hlength := congrArg List.length hsplit
  rw [List.length_append] at hlength
  have hshort : 5 < used.length := by
    simp only [List.length_cons, List.length_nil] at hlength
    omega
  exact ⟨hunpack, hcut [0x81, 0xa1, 0x6b, 0x92, 0x01] (by decide) hshort⟩

end TransitLink.Snapshot
