import TransitLink.Json.Basic

/-!
# Parts of a JSON value

* `Json.induct` : what holds of a value whenever it holds of the values right inside it holds of all values.
* `Json.Part` : the value itself, and everything inside it. `Json.IsNumber` : an integer or a double.
* `Members.mem_merge` : merging adds no members. `Members.merge_of_nodup` : it changes nothing where no name is repeated.
* `Members.find?_putAll` : of the members put under a name, the last counts.
* `Members.names_putAll` : a name has the place where it came first.
* `Members.putAll_eq_self_iff` : members that are put change nothing if the last under each name is there already.
-/

namespace TransitLink

set_option autoImplicit false

@[elab_as_elim, induction_eliminator]
theorem Json.induct {motive : Json → Prop} (null : motive .null) (bool : ∀ b, motive (.bool b))
    (int : ∀ n, motive (.int n)) (float : ∀ x, motive (.float x)) (str : ∀ s, motive (.str s))
    (arr : ∀ js, (∀ j ∈ js, motive j) → motive (.arr js))
    (obj : ∀ ms : List (String × Json), (∀ m ∈ ms, motive m.2) → motive (.obj ms)) (j : Json) : motive j :=
  @Json.rec motive (fun js => ∀ j ∈ js, motive j) (fun ms => ∀ m ∈ ms, motive m.2) (fun m => motive m.2)
    null bool int float str arr obj
    (fun _ h => absurd h List.not_mem_nil) (fun _ _ hj hjs => List.forall_mem_cons.mpr ⟨hj, hjs⟩)
    (fun _ h => absurd h List.not_mem_nil) (fun _ _ hm hms => List.forall_mem_cons.mpr ⟨hm, hms⟩)
    (fun _ _ hj => hj) j

/-- `Json.Part i j`: the value `i` is `j` itself or stands anywhere inside it, as an item or as a member's value. -/
inductive Json.Part : Json → Json → Prop where
  | self (j : Json) : Part j j
  | item {i j : Json} {items : List Json} : j ∈ items → Part i j → Part i (.arr items)
  | member {i : Json} {m : String × Json} {ms : List (String × Json)} : m ∈ ms → Part i m.2 → Part i (.obj ms)

def Json.IsNumber : Json → Prop
  | .int _ => True
  | .float _ => True
  | _ => False

namespace Members
variable {α : Type}

theorem mem_put {ms : Members α} {name : String} {v : α} {m : String × α} (h : m ∈ put ms name v) :
    m = (name, v) ∨ m ∈ ms := by
  induction ms with
  | nil => exact .inl (List.mem_singleton.mp h)
  | cons k ms ih =>
    rw [put] at h
    split at h
    · rename_i hk
      rcases List.mem_cons.mp h with rfl | h
      · exact .inl (Prod.ext hk rfl)
      · exact .inr (List.mem_cons_of_mem _ h)
    · rcases List.mem_cons.mp h with rfl | h
      · exact .inr List.mem_cons_self
      · exact (ih h).imp_right (List.mem_cons_of_mem _)

theorem put_of_fresh {ms : Members α} {name : String} (h : name ∉ ms.names) (v : α) :
    put ms name v = ms ++ [(name, v)] := by
  induction ms with
  | nil => rfl
  | cons k ms ih =>
    rw [names, List.map_cons, List.mem_cons, not_or] at h
    rw [put, if_neg (fun hk => h.1 hk.symm), ih h.2, List.cons_append]

/-- The members with those of another list put into them, one after the other. -/
def putAll (sofar ms : Members α) : Members α := ms.foldl (fun acc m => acc.put m.1 m.2) sofar

theorem mem_putAll {sofar ms : Members α} {m : String × α} (h : m ∈ putAll sofar ms) : m ∈ sofar ∨ m ∈ ms := by
  induction ms generalizing sofar with
  | nil => exact .inl h
  | cons k ms ih =>
    rcases ih h with h | h
    · exact (mem_put h).elim (fun hm => .inr (hm ▸ List.mem_cons_self)) .inl
    · exact .inr (List.mem_cons_of_mem _ h)

theorem putAll_of_nodup {sofar ms : Members α} (h : (names (sofar ++ ms)).Nodup) : putAll sofar ms = sofar ++ ms := by
  induction ms generalizing sofar with
  | nil => rw [List.append_nil, putAll, List.foldl_nil]
  | cons k ms ih =>
    have hfresh : k.1 ∉ names sofar := by
      rw [names, List.map_append, List.map_cons, List.nodup_append] at h
      exact fun hk => h.2.2 _ hk _ List.mem_cons_self rfl
    rw [← List.singleton_append, ← List.append_assoc] at h
    rw [putAll, List.foldl_cons, put_of_fresh hfresh]
    exact (ih h).trans (List.append_assoc ..)

theorem mem_merge {ms : Members α} {m : String × α} (h : m ∈ merge ms) : m ∈ ms :=
  (mem_putAll h).resolve_left List.not_mem_nil

theorem merge_of_nodup {ms : Members α} (h : ms.names.Nodup) : merge ms = ms := by
  have hall : putAll [] ms = [] ++ ms := putAll_of_nodup h
  exact hall

/-! ## Looking up -/

theorem mem_of_find? {ms : Members α} {name : String} {v : α} (h : ms.find? name = some v) : (name, v) ∈ ms := by
  induction ms with
  | nil => cases h
  | cons k ms ih =>
    rw [find?] at h
    split at h
    · rename_i hk
      rw [← hk, ← Option.some.inj h]
      exact List.mem_cons_self
    · exact List.mem_cons_of_mem _ (ih h)

theorem mem_names_of_find? {ms : Members α} {name : String} {v : α} (h : ms.find? name = some v) : name ∈ ms.names :=
  List.mem_map_of_mem (f := Prod.fst) (mem_of_find? h)

theorem find?_eq_none_iff {ms : Members α} {name : String} : ms.find? name = none ↔ name ∉ ms.names := by
  induction ms with
  | nil => exact iff_of_true rfl List.not_mem_nil
  | cons k ms ih =>
    rw [find?, names, List.map_cons, List.mem_cons, not_or]
    split
    · rename_i hk
      exact iff_of_false (Option.some_ne_none _) fun h => h.1 hk.symm
    · rename_i hk
      exact ih.trans ⟨fun h => ⟨fun hname => hk hname.symm, h⟩, And.right⟩

theorem find?_of_mem {ms : Members α} (hnodup : ms.names.Nodup) {m : String × α} (hm : m ∈ ms) :
    ms.find? m.1 = some m.2 := by
  induction ms with
  | nil => cases hm
  | cons k ms ih =>
    rw [names, List.map_cons, List.nodup_cons] at hnodup
    rcases List.mem_cons.mp hm with rfl | hm
    · rw [find?, if_pos rfl]
    · have hk : k.1 ≠ m.1 := fun hk => hnodup.1 (hk ▸ List.mem_map_of_mem hm)
      rw [find?, if_neg hk]
      exact ih hnodup.2 hm

theorem find?_append (ms ns : Members α) (name : String) :
    find? name (ms ++ ns) = (find? name ms).or (find? name ns) := by
  induction ms with
  | nil => rfl
  | cons k ms ih =>
    rw [List.cons_append, find?, find?, ih]
    split <;> rfl

theorem find?_map {β : Type} (f : α → β) (ms : Members α) (name : String) :
    find? name (ms.map fun m => (m.1, f m.2)) = (find? name ms).map f := by
  induction ms with
  | nil => rfl
  | cons m ms ih =>
    rw [List.map_cons, find?, find?, ih]
    split <;> rfl

/-- Leaving out members of other names does not matter. -/
theorem find?_filter {p : String × α → Bool} {name : String} (h : ∀ v, p (name, v) = true) (ms : Members α) :
    find? name (ms.filter p) = find? name ms := by
  induction ms with
  | nil => rfl
  | cons m ms ih =>
    obtain ⟨k, v⟩ := m
    by_cases hk : k = name
    · subst hk
      rw [List.filter_cons_of_pos (h v), find?, if_pos rfl, find?, if_pos rfl]
    · rw [find?, if_neg hk, ← ih, List.filter_cons]
      split
      · rw [find?, if_neg hk]
      · rfl

/-- Of the members that come from a list, the first with a name counts. -/
theorem find?_filterMap_eq_some_iff {β : Type} {f : β → Option (String × α)} {xs : List β} {name : String} {v : α} :
    find? name (xs.filterMap f) = some v ↔ ∃ before x after, xs = before ++ x :: after ∧ f x = some (name, v) ∧
      ∀ y ∈ before, ∀ w, f y ≠ some (name, w) := by
  have hfirst : find? name (xs.filterMap f) =
      ((xs.find? fun x => (f x).any fun m => m.1 = name).bind f).map Prod.snd := by
    rw [← List.find?_filterMap]
    induction xs.filterMap f with
    | nil => rfl
    | cons m ms ih =>
      rw [find?, List.find?_cons, ih]
      by_cases hm : m.1 = name <;> simp [hm]
  rw [hfirst, Option.map_eq_some_iff]
  constructor
  · rintro ⟨⟨k, w⟩, hbind, rfl⟩
    obtain ⟨x, hfind, hx⟩ := Option.bind_eq_some_iff.mp hbind
    obtain ⟨hname, before, after, rfl, hbefore⟩ := List.find?_eq_some_iff_append.mp hfind
    rw [hx, Option.any_some, decide_eq_true_eq] at hname
    refine ⟨before, x, after, rfl, hname ▸ hx, fun y hy w hw => ?_⟩
    simpa [hw] using hbefore y hy
  · rintro ⟨before, x, after, rfl, hx, hbefore⟩
    refine ⟨(name, v), Option.bind_eq_some_iff.mpr ⟨x, List.find?_eq_some_iff_append.mpr ?_, hx⟩, rfl⟩
    refine ⟨by simp [hx], before, after, rfl, fun y hy => ?_⟩
    cases hfy : f y with
    | none => rfl
    | some m =>
      have hm : m.1 ≠ name := fun hm => hbefore y hy m.2 (by rw [hfy, ← hm])
      simp [hm]

theorem find?_put (ms : Members α) (name other : String) (v : α) :
    find? other (put ms name v) = if name = other then some v else find? other ms := by
  induction ms with
  | nil => rfl
  | cons k ms ih =>
    rw [put]
    split
    · rename_i hk
      subst hk
      rw [find?, find?]
      split <;> rfl
    · rename_i hk
      rw [find?, ih, find?]
      split
      · rename_i hother
        rw [if_neg fun hname => hk (hother.trans hname.symm)]
      · rfl

/-- Of the members that are put under a name, the last counts. -/
theorem find?_putAll (sofar ms : Members α) (name : String) :
    find? name (putAll sofar ms) = (find? name ms.reverse).or (find? name sofar) := by
  induction ms generalizing sofar with
  | nil => rfl
  | cons m ms ih =>
    have hput := ih (put sofar m.1 m.2)
    rw [find?_put] at hput
    rw [putAll, List.foldl_cons, List.reverse_cons, find?_append]
    refine hput.trans ?_
    cases find? name ms.reverse with
    | some v => rfl
    | none =>
      rw [Option.none_or, Option.none_or, find?, find?]
      split <;> rfl

theorem find?_merge (ms : Members α) (name : String) : find? name (merge ms) = find? name ms.reverse := by
  have hlast : find? name (merge ms) = _ := find?_putAll [] ms name
  rwa [find?, Option.or_none] at hlast

/-- The last member with a name. -/
theorem find?_reverse_of_last {before after : Members α} {name : String} (h : name ∉ after.names) (v : α) :
    find? name (before ++ (name, v) :: after).reverse = some v := by
  have hafter : find? name after.reverse = none := by
    rw [find?_eq_none_iff, names, List.map_reverse, List.mem_reverse]
    exact h
  rw [List.reverse_append, List.reverse_cons, find?_append, find?_append, hafter, find?, if_pos rfl]
  rfl

/-! ## Names -/

theorem names_put_of_mem {ms : Members α} {name : String} (h : name ∈ ms.names) (v : α) :
    (put ms name v).names = ms.names := by
  induction ms with
  | nil => cases h
  | cons k ms ih =>
    rw [put]
    split
    · rfl
    · rename_i hk
      rw [names, List.map_cons, List.mem_cons] at h
      rw [names, List.map_cons, names, List.map_cons, List.cons.injEq]
      exact ⟨rfl, ih (h.resolve_left fun hname => hk hname.symm)⟩

theorem nodup_names_put {ms : Members α} (h : ms.names.Nodup) (name : String) (v : α) :
    (put ms name v).names.Nodup := by
  by_cases hname : name ∈ ms.names
  · rwa [names_put_of_mem hname]
  · rw [put_of_fresh hname, names, List.map_append, List.nodup_append]
    refine ⟨h, by simp, ?_⟩
    rintro other hother _ hlast rfl
    rw [List.map_singleton, List.mem_singleton] at hlast
    obtain rfl : other = name := hlast
    exact hname hother

theorem nodup_names_putAll {sofar : Members α} (h : sofar.names.Nodup) (ms : Members α) :
    (putAll sofar ms).names.Nodup := by
  induction ms generalizing sofar with
  | nil => exact h
  | cons m ms ih => exact ih (nodup_names_put h m.1 m.2)

theorem nodup_names_merge (ms : Members α) : (merge ms).names.Nodup := by
  have hnone : (names ([] : Members α)).Nodup := List.nodup_nil
  exact nodup_names_putAll hnone ms

/-- A name that is new takes its place where it comes first. -/
theorem names_putAll (sofar ms : Members α) :
    (putAll sofar ms).names = sofar.names ++ (ms.names.filter (· ∉ sofar.names)).eraseDups := by
  induction ms generalizing sofar with
  | nil => exact (List.append_nil _).symm
  | cons m ms ih =>
    have hrest : (putAll sofar (m :: ms)).names = _ := ih (put sofar m.1 m.2)
    rw [hrest]
    change _ = sofar.names ++ ((m.1 :: names ms).filter (· ∉ sofar.names)).eraseDups
    by_cases hm : m.1 ∈ sofar.names
    · rw [names_put_of_mem hm, List.filter_cons_of_neg (by simpa using hm)]
    · have hput : (put sofar m.1 m.2).names = sofar.names ++ [m.1] := by
        rw [put_of_fresh hm, names, List.map_append]
        rfl
      -- of the names behind, those that are not new are left out in two steps on one side, in one on the other
      have hfilter : (names ms).filter (· ∉ sofar.names ++ [m.1]) =
          ((names ms).filter (· ∉ sofar.names)).filter fun k => !k == m.1 := by
        rw [List.filter_filter]
        refine List.filter_congr fun k _ => ?_
        rw [Bool.eq_iff_iff]
        simp [and_comm]
      rw [hput, hfilter, List.filter_cons_of_pos (by simpa using hm), List.eraseDups_cons, List.append_assoc]
      rfl

theorem names_putAll_of_subset {sofar ms : Members α} (h : ms.names ⊆ sofar.names) :
    (putAll sofar ms).names = sofar.names := by
  have hnone : ms.names.filter (· ∉ sofar.names) = [] :=
    List.filter_eq_nil_iff.mpr fun name hname => by simpa using h hname
  rw [names_putAll, hnone]
  exact List.append_nil _

theorem names_merge (ms : Members α) : (merge ms).names = ms.names.eraseDups := by
  have hnone : ms.names.filter (· ∉ names ([] : Members α)) = ms.names :=
    List.filter_eq_self.mpr fun k _ => decide_eq_true List.not_mem_nil
  have hall : (merge ms).names = _ := names_putAll [] ms
  rw [hall, hnone]
  rfl

theorem eq_of_find? {ms ns : Members α} (hnames : ms.names = ns.names) (hnodup : ms.names.Nodup)
    (h : ∀ name, ms.find? name = ns.find? name) : ms = ns := by
  induction ms generalizing ns with
  | nil => exact (List.map_eq_nil_iff.mp hnames.symm).symm
  | cons k ms ih =>
    cases ns with
    | nil => cases hnames
    | cons l ns =>
      rw [names, names, List.map_cons, List.map_cons, List.cons.injEq] at hnames
      rw [names, List.map_cons, List.nodup_cons] at hnodup
      have hhead := h k.1
      rw [find?, find?, if_pos rfl, if_pos hnames.1.symm, Option.some.injEq] at hhead
      rw [Prod.ext hnames.1 hhead, ih hnames.2 hnodup.2]
      intro name
      by_cases hk : k.1 = name
      · -- the name is in neither rest
        have hns : k.1 ∉ names ns := by
          rw [names, ← hnames.2]
          exact hnodup.1
        rw [← hk, find?_eq_none_iff.mpr hnodup.1, find?_eq_none_iff.mpr hns]
      · have hrest := h name
        rwa [find?, find?, if_neg hk, if_neg (hnames.1 ▸ hk)] at hrest

/-- Members that are put change nothing exactly if the last under each name is there already. -/
theorem putAll_eq_self_iff {sofar ms : Members α} (hnodup : sofar.names.Nodup) :
    putAll sofar ms = sofar ↔ ∀ name v, find? name ms.reverse = some v → find? name sofar = some v := by
  constructor
  · intro h name v hlast
    have hfind := find?_putAll sofar ms name
    rwa [h, hlast] at hfind
  · intro h
    have hnames : ms.names ⊆ sofar.names := by
      intro name hname
      obtain ⟨m, hm, rfl⟩ := List.mem_map.mp hname
      have hlast : find? m.1 ms.reverse ≠ none := by
        rw [ne_eq, find?_eq_none_iff, names, List.map_reverse, List.mem_reverse]
        exact fun hfresh => hfresh (List.mem_map_of_mem hm)
      obtain ⟨v, hv⟩ := Option.ne_none_iff_exists'.mp hlast
      exact mem_names_of_find? (h m.1 v hv)
    refine eq_of_find? (names_putAll_of_subset hnames) (nodup_names_putAll hnodup ms) fun name => ?_
    rw [find?_putAll]
    cases hlast : find? name ms.reverse with
    | some v => exact (h _ _ hlast).symm
    | none => rfl

end Members
end TransitLink
