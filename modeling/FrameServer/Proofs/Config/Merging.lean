import FrameServer.Config.Load

/-!
# FrameServer.Proofs.Config.Merging — layers are merged field by field

What an entry of a layer says about a field of a section, and how the entries of a layer
change the fields that are there already. An entry changes one entry of the tree and looks
at nothing else, so a field is as the last layer that names it says.

1. **Entries** of a group after a write.
2. **Edits**: changes of one entry of a group.
3. **Sections**: what an entry of a layer names, and `tabular` for layers in which
   sections are tables.
4. **Layers**: `field?_overlay`, the fields after a layer was laid over others.
-/

namespace FrameServer

namespace Setting

/-! ## Entries -/

variable {key other : String} {v : Setting} {entries : List (String × Setting)}

theorem lookup_cons {α : Type} (other : String) (e : String × α) (later : List (String × α)) :
    (e :: later).lookup other = if other = e.1 then some e.2 else later.lookup other := by
  rcases e with ⟨name, w⟩
  by_cases hother : other = name
  · simp [hother]
  · simp [List.lookup_cons, beq_false_of_ne hother, hother]

theorem any_eq_isSome_lookup (key : String) (entries : List (String × Setting)) :
    entries.any (·.1 = key) = (entries.lookup key).isSome := by
  induction entries with
  | nil => rfl
  | cons e later ih =>
    rw [List.any_cons, lookup_cons, ih]
    by_cases hkey : key = e.1
    · simp [hkey]
    · have hne : ¬ e.1 = key := fun h => hkey h.symm
      simp [hkey, hne]

theorem lookup_map_replace (key other : String) (v : Setting) (entries : List (String × Setting)) :
    (entries.map fun e => if e.1 = key then (key, v) else e).lookup other =
      if other = key then (entries.lookup key).map fun _ => v else entries.lookup other := by
  induction entries with
  | nil => simp
  | cons e later ih =>
    rw [List.map_cons, lookup_cons, ih]
    by_cases hname : e.1 = key
    · by_cases hother : other = key
      · simp [lookup_cons, hname, hother]
      · simp [lookup_cons, hname, hother]
    · by_cases hother : other = key
      · have hne : ¬ key = e.1 := fun h => hname h.symm
        simp [lookup_cons, hname, hother, hne]
      · simp [lookup_cons, hname, hother]

/-- A write changes its own entry only. -/
theorem lookup_put (s : Setting) (key other : String) (v : Setting) :
    (s.put key v).entries.lookup other =
      if other = key then some v else s.entries.lookup other := by
  unfold put
  by_cases hany : s.entries.any (·.1 = key) = true
  · rw [if_pos hany]
    show (s.entries.map _).lookup other = _
    rw [lookup_map_replace]
    rw [any_eq_isSome_lookup] at hany
    rcases Option.isSome_iff_exists.mp hany with ⟨old, hold⟩
    rw [hold, Option.map_some]
  · rw [if_neg hany]
    show (s.entries ++ [(key, v)]).lookup other = _
    rw [any_eq_isSome_lookup, Option.not_isSome_iff_eq_none] at hany
    rw [List.lookup_append, lookup_cons]
    by_cases hother : other = key
    · simp [hother, hany]
    · simp [hother]

@[simp] theorem isGroup_put (s : Setting) (key : String) (v : Setting) :
    (s.put key v).isGroup = true := by
  unfold put
  split <;> rfl

/-! ## Edits -/

/-- A change of one entry that looks at what is below it and at nothing else. -/
structure Edit where
  target : String
  change : Option Setting → Setting

namespace Edit

def apply (e : Edit) (s : Setting) : Setting :=
  s.put e.target (e.change (s.entries.lookup e.target))

theorem lookup_apply (e : Edit) (s : Setting) (other : String) :
    (e.apply s).entries.lookup other =
      if other = e.target then some (e.change (s.entries.lookup other))
      else s.entries.lookup other := by
  rw [apply, lookup_put]
  by_cases hother : other = e.target
  · rw [if_pos hother, if_pos hother, hother]
  · rw [if_neg hother, if_neg hother]

/-- Laying a value over an entry: a group is merged into what is there, anything else
takes its place. -/
def merging (name : String) (v : Setting) : Edit where
  target := name
  change below :=
    match v with
    | .group upper => mergeAll upper (below.getD (.group []))
    | v => v

end Edit

theorem merge_eq_apply (name : String) (v s : Setting) :
    merge name v s = (Edit.merging name v).apply s := by
  cases v <;> simp [merge, Edit.merging, Edit.apply]

/-- The entries of a group under their names in lower case. -/
def folded (entries : List (String × Setting)) : List (String × Setting) :=
  entries.map fun e => (foldName e.1, e.2)

/-- If no two names of a group are the same in lower case, then each entry of it is laid
over the one of this name, and the others stay as they are. -/
theorem lookup_mergeAll {upper : List (String × Setting)}
    (hdistinct : (upper.map fun e => foldName e.1).Nodup) (s : Setting) (key : String) :
    (mergeAll upper s).entries.lookup key =
      (((folded upper).lookup key).map fun v =>
        (Edit.merging key v).change (s.entries.lookup key)).or (s.entries.lookup key) := by
  induction upper generalizing s with
  | nil => simp [mergeAll, folded]
  | cons e later ih =>
    rcases e with ⟨name, v⟩
    rcases List.nodup_cons.mp hdistinct with ⟨hfirst, hlater⟩
    rw [mergeAll, ih hlater, merge_eq_apply, Edit.lookup_apply]
    have hfolded : folded ((name, v) :: later) = (foldName name, v) :: folded later := rfl
    rw [hfolded, lookup_cons]
    by_cases hkey : key = foldName name
    · -- no later entry has this name
      have hnone : (folded later).lookup key = none := by
        rw [List.lookup_eq_none_iff]
        intro e he
        rcases List.mem_map.mp he with ⟨old, hold, rfl⟩
        rw [bne_iff_ne]
        intro hsame
        exact hfirst (List.mem_map.mpr ⟨old, hold, hsame.symm.trans hkey⟩)
      subst hkey
      simp [hnone, Edit.merging]
    · simp [hkey, Edit.merging]

theorem isGroup_mergeAll (upper : List (String × Setting)) {s : Setting} (hs : s.isGroup = true) :
    (mergeAll upper s).isGroup = true := by
  induction upper generalizing s with
  | nil => simpa [mergeAll] using hs
  | cons e later ih =>
    rcases e with ⟨name, v⟩
    rw [mergeAll, merge_eq_apply]
    exact ih (isGroup_put _ _ _)

/-! Assigning to a path goes down one name after the other. -/

theorem assign_name (s : Setting) (name : String) (v : Setting) :
    s.assign (name, []) v = s.put (foldName name)
      ((Edit.merging (foldName name) v).change (s.entries.lookup (foldName name))) :=
  merge_eq_apply _ v s

theorem assign_child (s : Setting) (name child : String) (rest : List Step) (v : Setting) :
    s.assign (name, .child child :: rest) v =
      s.put name (((s.entries.lookup name).getD .absent).assign (child, rest) v) := by
  cases hrest : rest with
  | nil => simp [assign, atSteps]
  | cons step later =>
    have hlast : (Step.child child :: step :: later).getLast? = (step :: later).getLast? := rfl
    have hdrop : (Step.child child :: step :: later).dropLast =
        .child child :: (step :: later).dropLast := rfl
    simp only [assign, hlast, hdrop]
    cases hstep : (step :: later).getLast? with
    | none => simp at hstep
    | some last => cases last <;> rfl

/-- An index as the first step makes a list of what the name leads to. -/
theorem assign_index (name : String) (i : Int) (rest : List Step) (v : Setting) :
    ∃ change : Option Setting → Setting, ∀ s : Setting,
      s.assign (name, .index i :: rest) v = s.put name (change (s.entries.lookup name)) := by
  cases hlast : (Step.index i :: rest).getLast? with
  | none => simp at hlast
  | some last =>
    cases last with
    | child last =>
      refine ⟨fun below => atSteps (fun parent => merge (foldName last) v parent)
        (Step.index i :: rest).dropLast (below.getD .absent), ?_⟩
      intro s
      simp [assign, hlast, atSteps]
    | index j =>
      refine ⟨fun below => atSteps (atIndex j fun _ => v) (Step.index i :: rest).dropLast
        (below.getD .absent), ?_⟩
      intro s
      simp [assign, hlast, atSteps]

/-- Whatever the path, it changes one entry and looks at what is below it only. -/
theorem exists_edit (path : String × List Step) (v : Setting) :
    ∃ e : Edit, ∀ s : Setting, s.assign path v = e.apply s := by
  rcases path with ⟨name, steps⟩
  cases steps with
  | nil => exact ⟨.merging (foldName name) v, fun s => merge_eq_apply _ v s⟩
  | cons step rest =>
    cases step with
    | child child =>
      refine ⟨⟨name, fun below => (below.getD .absent).assign (child, rest) v⟩, ?_⟩
      intro s
      exact s.assign_child name child rest v
    | index i =>
      rcases assign_index name i rest v with ⟨change, hchange⟩
      exact ⟨⟨name, change⟩, hchange⟩

/-! ## Sections -/

/-- The value of a field of a section. -/
def field? (sec key : String) (s : Setting) : Option Setting :=
  (s.entries.lookup sec).bind fun part => part.entries.lookup key

/-- A value laid over nothing: the names in a group are in lower case. -/
def lowered : Setting → Setting
  | .group entries => mergeAll entries (.group [])
  | v => v

theorem change_merging_none (name : String) (v : Setting) :
    (Edit.merging name v).change none = lowered v := by
  cases v <;> rfl

/-- What an entry of a layer says about a field of a section. The entry is the section
itself, or its name is a path into the section. -/
def named? (sec key : String) (e : String × Setting) : Option Setting :=
  match keyPath e.1 with
  | (name, []) =>
    if foldName name = sec then ((folded e.2.entries).lookup key).map lowered else none
  | (name, .child child :: rest) =>
    if name = sec then (Setting.absent.assign (child, rest) e.2).entries.lookup key else none
  | (_, .index _ :: _) => none

/-- If an entry is one of some sections, it is a group in which no two names are the same
in lower case; and it makes a list of none of them. -/
def tabular (sections : List String) (e : String × Setting) : Bool :=
  match keyPath e.1 with
  | (name, []) =>
    foldName name ∉ sections || (e.2.isGroup && (e.2.entries.map fun e => foldName e.1).Nodup)
  | (_, .child _ :: _) => true
  | (name, .index _ :: _) => name ∉ sections

/-- All of some sections that are there are groups. -/
def Sectioned (sections : List String) (s : Setting) : Prop :=
  ∀ sec ∈ sections, ∀ part, s.entries.lookup sec = some part → part.isGroup = true

variable {sections : List String} {sec : String}

theorem field?_put (s : Setting) (name : String) (part : Setting) :
    (s.put name part).field? sec key =
      if sec = name then part.entries.lookup key else s.field? sec key := by
  unfold field?
  rw [lookup_put]
  split <;> rfl

/-- The fields of a section, whatever stands for a section that is not there. -/
theorem lookup_getD (s : Setting) (sec key : String) {nothing : Setting}
    (hnothing : nothing.entries = []) :
    ((s.entries.lookup sec).getD nothing).entries.lookup key = s.field? sec key := by
  unfold field?
  cases s.entries.lookup sec with
  | none => simp [hnothing]
  | some part => rfl

/-- An entry adds what it says about a field that is not there yet, and changes none that
it does not name. -/
theorem field?_assign {e : String × Setting} (he : tabular sections e = true)
    (hsec : sec ∈ sections) (s : Setting)
    (hfree : named? sec key e = none ∨ s.field? sec key = none) :
    (s.assign (keyPath e.1) e.2).field? sec key = (named? sec key e).or (s.field? sec key) := by
  rcases e with ⟨name, v⟩
  unfold named? at hfree ⊢
  unfold tabular at he
  split at hfree
  · next first hpath =>
    rw [hpath] at he ⊢
    simp only [assign_name, Edit.merging, field?_put]
    by_cases hfirst : foldName first = sec
    · subst hfirst
      have hgroup : v.isGroup = true ∧ (v.entries.map fun e => foldName e.1).Nodup := by
        simpa [hsec] using he
      cases v with
      | group upper =>
        have hdistinct : (upper.map fun e => foldName e.1).Nodup := hgroup.2
        rw [if_pos rfl] at hfree ⊢
        rw [if_pos rfl]
        dsimp only
        rw [lookup_mergeAll hdistinct, s.lookup_getD _ key rfl]
        cases hnamed : (folded upper).lookup key with
        | none => simp [entries, hnamed]
        | some w =>
          have hnone : s.field? (foldName first) key = none := by
            simpa [entries, hnamed] using hfree
          simp [entries, hnamed, hnone, change_merging_none]
      | _ => cases hgroup.1
    · have hne : ¬ sec = foldName first := fun h => hfirst h.symm
      simp [hfirst, hne]
  · next first child rest hpath =>
    rw [hpath] at he ⊢
    rw [assign_child, field?_put]
    by_cases hfirst : first = sec
    · subst hfirst
      rcases exists_edit (child, rest) v with ⟨edit, hedit⟩
      have hbelow : ((s.entries.lookup first).getD .absent).entries.lookup key =
          s.field? first key := s.lookup_getD first key rfl
      simp only [if_true, hedit, Edit.lookup_apply, hbelow] at hfree ⊢
      by_cases htarget : key = edit.target
      · -- the entry names this field, so it is not there yet
        have hnone : s.field? first key = none := by simpa [htarget] using hfree
        rw [if_pos htarget, if_pos htarget, hnone]
        rfl
      · simp [htarget, entries]
    · have hne : ¬ sec = first := fun h => hfirst h.symm
      simp [hfirst, hne]
  · next first i rest hpath =>
    rw [hpath] at he ⊢
    rcases assign_index first i rest v with ⟨change, hchange⟩
    have hne : ¬ sec = first := by
      rintro rfl
      simp [hsec] at he
    simp [hchange, field?_put, hne]

/-- A value that is no group, laid over a field of a section, takes its place. -/
theorem field?_assign_field (hv : v.isGroup = false) (s : Setting) (name child : String) :
    (s.assign (name, [.child child]) v).field? sec key =
      if sec = name ∧ key = foldName child then some v else s.field? sec key := by
  have hbelow : ((s.entries.lookup name).getD .absent).entries.lookup key = s.field? name key :=
    s.lookup_getD name key rfl
  have hchange : ∀ below, (Edit.merging (foldName child) v).change below = v := by
    intro below
    cases v with
    | group upper => cases hv
    | _ => rfl
  rw [assign_child, field?_put, assign_name, hchange, lookup_put, hbelow]
  by_cases hsec : sec = name
  · by_cases hkey : key = foldName child
    · simp [hsec, hkey]
    · simp [hsec, hkey]
  · simp [hsec]

/-- Sections stay groups. -/
theorem Sectioned.assign {e : String × Setting} (he : tabular sections e = true) {s : Setting}
    (hs : s.Sectioned sections) : (s.assign (keyPath e.1) e.2).Sectioned sections := by
  rcases e with ⟨name, v⟩
  intro sec hsec part hpart
  unfold tabular at he
  split at he
  · next first hpath =>
    rw [hpath] at hpart
    rw [assign_name, lookup_put] at hpart
    by_cases hfirst : sec = foldName first
    · rw [if_pos hfirst] at hpart
      rw [← Option.some.inj hpart]
      have hgroup : v.isGroup = true := by
        subst hfirst
        simp [hsec] at he
        exact he.1
      cases v with
      | group upper =>
        apply isGroup_mergeAll
        cases hbelow : s.entries.lookup (foldName first) with
        | none => rfl
        | some below => exact hs sec hsec below (hfirst ▸ hbelow)
      | _ => cases hgroup
    · rw [if_neg hfirst] at hpart
      exact hs sec hsec part hpart
  · next first child rest hpath =>
    rw [hpath, assign_child, lookup_put] at hpart
    by_cases hfirst : sec = first
    · rw [if_pos hfirst] at hpart
      rcases exists_edit (child, rest) v with ⟨edit, hedit⟩
      rw [← Option.some.inj hpart, hedit]
      exact isGroup_put _ _ _
    · rw [if_neg hfirst] at hpart
      exact hs sec hsec part hpart
  · next first i rest hpath =>
    rw [hpath] at hpart
    rcases assign_index first i rest v with ⟨change, hchange⟩
    have hne : ¬ sec = first := by
      rintro rfl
      simp [hsec] at he
    rw [hchange, lookup_put, if_neg hne] at hpart
    exact hs sec hsec part hpart

/-! ## Layers -/

/-- What a layer says about a field of a section. -/
def valueIn (layer : List (String × Setting)) (sec key : String) : Option Setting :=
  layer.findSome? (named? sec key)

variable {layer : List (String × Setting)}

theorem overlay_cons (s : Setting) (e : String × Setting) (later : List (String × Setting)) :
    s.overlay (e :: later) = (s.assign (keyPath e.1) e.2).overlay later := rfl

/-- A layer without two names for a field adds what it says about the field to a tree that
does not have it. -/
theorem field?_overlay (hlayer : ∀ e ∈ layer, tabular sections e = true) (hsec : sec ∈ sections)
    (honce : layer.Pairwise fun e e' => named? sec key e = none ∨ named? sec key e' = none)
    (s : Setting) (hfree : valueIn layer sec key = none ∨ s.field? sec key = none) :
    (s.overlay layer).field? sec key = (valueIn layer sec key).or (s.field? sec key) := by
  induction layer generalizing s with
  | nil => simp [overlay, valueIn]
  | cons e later ih =>
    rcases List.pairwise_cons.mp honce with ⟨hfirst, hlater⟩
    have hvalue : valueIn (e :: later) sec key =
        (named? sec key e).or (valueIn later sec key) := by
      simp only [valueIn, List.findSome?_cons]
      cases named? sec key e <;> rfl
    rw [hvalue] at hfree ⊢
    have hstep : (s.assign (keyPath e.1) e.2).field? sec key =
        (named? sec key e).or (s.field? sec key) := by
      apply field?_assign (hlayer e List.mem_cons_self) hsec
      rcases hfree with hfree | hfree
      · exact .inl (Option.or_eq_none_iff.mp hfree).1
      · exact .inr hfree
    rw [overlay_cons]
    -- either this entry names the field, or one later entry at most
    cases hnamed : named? sec key e with
    | none =>
      rw [hnamed, Option.none_or] at hstep hfree
      rw [Option.none_or, ← hstep]
      rw [← hstep] at hfree
      exact ih (fun e he => hlayer e (List.mem_cons_of_mem _ he)) hlater _ hfree
    | some v =>
      have hlaterNone : valueIn later sec key = none := by
        apply List.findSome?_eq_none_iff.mpr
        intro e' he'
        have hother := hfirst e' he'
        rw [hnamed] at hother
        exact hother.resolve_left (by simp)
      rw [ih (fun e he => hlayer e (List.mem_cons_of_mem _ he)) hlater _ (.inl hlaterNone), hstep,
        hnamed, hlaterNone]
      rfl

theorem Sectioned.overlay (hlayer : ∀ e ∈ layer, tabular sections e = true) {s : Setting}
    (hs : s.Sectioned sections) : (s.overlay layer).Sectioned sections := by
  induction layer generalizing s with
  | nil => exact hs
  | cons e later ih =>
    apply ih (fun e he => hlayer e (List.mem_cons_of_mem _ he))
    exact hs.assign (hlayer e List.mem_cons_self)

end Setting

end FrameServer
