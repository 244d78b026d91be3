import Quiesce.Activity
/-!
# The registry

Which activities are registered. An *index* has the priority of each one, for whoever asks after an
activity; the *groups*, one for each priority, have their members in the order of registration, for
whoever visits them. Both are kept up separately; that they say the same is part of being a
registry (`Registry.Consistent`). The type `Registry` with its groups, `ActivityGroup`; activities
are told apart by `same_activity`, that is by what they are and not by their names.
-/

namespace Quiesce

/-- The activities registered under one priority, oldest registration first. -/
structure Group where
  priority : Priority
  members : List Activity := []
deriving DecidableEq, Repr

namespace Group

def push (g : Group) (a : Activity) : Group :=
  { g with members := g.members ++ [a] }

def erase (g : Group) (a : Activity) : Group :=
  { g with members := g.members.filter fun b => b ≠ a }

theorem priority_push (g : Group) (a : Activity) : (g.push a).priority = g.priority := rfl

theorem priority_erase (g : Group) (a : Activity) : (g.erase a).priority = g.priority := rfl

theorem members_push (g : Group) (a : Activity) : (g.push a).members = g.members ++ [a] := rfl

theorem members_erase (g : Group) (a : Activity) :
    (g.erase a).members = g.members.filter fun b => b ≠ a := rfl

end Group

namespace Registry

/-- The priority that an index has for an activity. -/
def lookup? (index : List (Activity × Priority)) (a : Activity) : Option Priority :=
  (index.find? fun entry => entry.1 = a).map (·.2)

/-- Index and groups say the same. -/
structure Consistent (index : List (Activity × Priority)) (groups : List Group) : Prop where
  /-- There is one group for each priority, ascending. -/
  levels : groups.map Group.priority = Priority.all
  /-- An activity has one priority. -/
  keys : (index.map (·.1)).Nodup
  /-- Nobody is a member twice. -/
  once : ∀ g ∈ groups, g.members.Nodup
  /-- The members of a group are those that have its priority. -/
  agree : ∀ g ∈ groups, ∀ a, a ∈ g.members ↔ (a, g.priority) ∈ index

end Registry

/-- The registered activities, by identity and by priority. -/
structure Registry where
  /-- The priority of each registered activity, in no particular order. -/
  index : List (Activity × Priority)
  groups : List Group
  consistent : Registry.Consistent index groups
deriving DecidableEq, Repr

namespace Registry

variable {index : List (Activity × Priority)} {groups : List Group} {a b : Activity}
  {p q : Priority}

/-! ## Index and groups -/

theorem mem_of_lookup? (h : lookup? index a = some p) : (a, p) ∈ index := by
  obtain ⟨⟨b, q⟩, hf, hp⟩ := Option.map_eq_some_iff.1 h
  have hb : b = a := by simpa using List.find?_some hf
  have hq : q = p := hp
  exact hb ▸ hq ▸ List.mem_of_find?_eq_some hf

theorem lookup?_of_mem (keys : (index.map (·.1)).Nodup) (h : (a, p) ∈ index) :
    lookup? index a = some p := by
  induction index with
  | nil => cases h
  | cons entry index ih =>
    rw [List.map_cons, List.nodup_cons] at keys
    rcases List.mem_cons.1 h with rfl | h
    · simp [lookup?]
    · have ne : entry.1 ≠ a := fun same => keys.1 (same ▸ List.mem_map_of_mem h)
      rw [← ih keys.2 h]
      simp [lookup?, ne]

theorem lookup?_eq_none_iff : lookup? index a = none ↔ a ∉ index.map (·.1) := by
  simp only [lookup?, Option.map_eq_none_iff, List.find?_eq_none, List.mem_map, not_exists, not_and,
    decide_eq_true_eq]

namespace Consistent

variable (h : Consistent index groups)
include h

theorem lookup?_eq_some_iff : lookup? index a = some p ↔ (a, p) ∈ index :=
  ⟨mem_of_lookup?, lookup?_of_mem h.keys⟩

/-- A group stands at the place of its priority. -/
theorem place {i : Nat} {g : Group} (there : groups[i]? = some g) : g.priority.level = i := by
  refine Priority.level_of_getElem?_all ?_
  rw [← h.levels, List.getElem?_map, there]
  rfl

theorem getElem?_eq_some_iff {g : Group} :
    groups[p.level]? = some g ↔ g ∈ groups ∧ g.priority = p := by
  constructor
  · intro there
    exact ⟨List.mem_of_getElem? there, Priority.eq_of_level (h.place there)⟩
  · rintro ⟨member, rfl⟩
    obtain ⟨i, there⟩ := List.getElem?_of_mem member
    rw [h.place there, there]

theorem exists_group (p : Priority) : ∃ g ∈ groups, g.priority = p := by
  have member : p ∈ groups.map Group.priority := h.levels ▸ Priority.mem_all p
  exact List.mem_map.1 member

/-- To change what stands at the place of a priority is to change the group of this priority. -/
theorem modify_eq_map (f : Group → Group) (p : Priority) :
    groups.modify p.level f = groups.map fun g => if g.priority = p then f g else g := by
  refine List.ext_getElem? fun i => ?_
  rw [List.getElem?_modify, List.getElem?_map]
  cases there : groups[i]? with
  | none => rfl
  | some g =>
    have same : p.level = i ↔ g.priority = p := by
      rw [← h.place there]
      exact ⟨fun level => Priority.eq_of_level level.symm, fun priority => priority ▸ rfl⟩
    simp [same]

theorem levels_modify {f : Group → Group} (keeps : ∀ g, (f g).priority = g.priority)
    (p : Priority) : (groups.modify p.level f).map Group.priority = Priority.all := by
  rw [h.modify_eq_map, List.map_map, ← h.levels]
  refine List.map_congr_left fun g _ => ?_
  by_cases same : g.priority = p <;> simp [same, keeps]

theorem not_mem (untracked : lookup? index a = none) {g : Group} (hg : g ∈ groups) :
    a ∉ g.members := by
  intro member
  rw [h.agree g hg, ← h.lookup?_eq_some_iff, untracked] at member
  cases member

theorem insert (untracked : lookup? index a = none) (p : Priority) :
    Consistent (index ++ [(a, p)]) (groups.modify p.level fun g => g.push a) where
  levels := h.levels_modify (fun g => g.priority_push a) p
  keys := by
    rw [List.map_append, List.nodup_append]
    refine ⟨h.keys, by simp, ?_⟩
    rintro b hb c hc rfl
    rw [lookup?_eq_none_iff] at untracked
    simp at hc
    exact untracked (hc ▸ hb)
  once := by
    intro g' hg'
    rw [h.modify_eq_map] at hg'
    obtain ⟨g, hg, rfl⟩ := List.mem_map.1 hg'
    by_cases same : g.priority = p
    · rw [if_pos same, Group.members_push, List.nodup_append]
      refine ⟨h.once g hg, by simp, ?_⟩
      rintro b hb c hc rfl
      simp at hc
      exact h.not_mem untracked hg (hc ▸ hb)
    · rw [if_neg same]
      exact h.once g hg
  agree := by
    intro g' hg' b
    rw [h.modify_eq_map] at hg'
    obtain ⟨g, hg, rfl⟩ := List.mem_map.1 hg'
    have before := h.agree g hg b
    by_cases same : g.priority = p
    · rw [same] at before
      simp [same, Group.members_push, Group.priority_push, before]
    · simp [same, before]

theorem erase (tracked : lookup? index a = some p) :
    Consistent (index.filter fun entry => entry.1 ≠ a)
      (groups.modify p.level fun g => g.erase a) where
  levels := h.levels_modify (fun g => g.priority_erase a) p
  keys := h.keys.sublist (List.filter_sublist.map _)
  once := by
    intro g' hg'
    rw [h.modify_eq_map] at hg'
    obtain ⟨g, hg, rfl⟩ := List.mem_map.1 hg'
    by_cases same : g.priority = p
    · rw [if_pos same]
      exact (h.once g hg).sublist List.filter_sublist
    · rw [if_neg same]
      exact h.once g hg
  agree := by
    intro g' hg' b
    rw [h.modify_eq_map] at hg'
    obtain ⟨g, hg, rfl⟩ := List.mem_map.1 hg'
    by_cases same : g.priority = p
    · simp [same, Group.members_erase, Group.priority_erase, h.agree g hg]
    · rw [if_neg same, h.agree g hg, List.mem_filter]
      -- The activity that leaves has another priority.
      have other : (b, g.priority) ∈ index → b ≠ a := by
        rintro hb rfl
        rw [h.lookup?_eq_some_iff.2 hb] at tracked
        exact same (Option.some.inj tracked)
      simpa using other

end Consistent

/-! ## Operations -/

def empty : Registry where
  index := []
  groups := Priority.all.map fun p => { priority := p }
  consistent :=
    { levels := by simp [Function.comp_def]
      keys := List.nodup_nil
      once := by simp
      agree := by simp }

def priorityOf? (g : Registry) (a : Activity) : Option Priority :=
  lookup? g.index a

/-- Registers an activity, unless it is registered already, and tells whether it did. -/
def tryInsert (g : Registry) (a : Activity) (p : Priority) : Bool × Registry :=
  if untracked : g.priorityOf? a = none then
    (true, ⟨g.index ++ [(a, p)], g.groups.modify p.level fun group => group.push a,
      g.consistent.insert untracked p⟩)
  else (false, g)

/-- Forgets an activity, and tells the priority that it was registered under. -/
def tryErase (g : Registry) (a : Activity) : Option Priority × Registry :=
  match tracked : g.priorityOf? a with
  | none => (none, g)
  | some p =>
    (some p, ⟨g.index.filter fun entry => entry.1 ≠ a,
      g.groups.modify p.level fun group => group.erase a, g.consistent.erase tracked⟩)

def insert (g : Registry) (a : Activity) (p : Priority) : Registry := (g.tryInsert a p).2

def erase (g : Registry) (a : Activity) : Registry := (g.tryErase a).2

def size (g : Registry) : Nat := g.index.length

/-- The activities registered under a priority, in the order of registration. -/
def members (g : Registry) (p : Priority) : List Activity :=
  g.groups[p.level]?.elim [] Group.members

/-! ## What the operations do -/

section
variable (g : Registry)

theorem priorityOf?_eq_some_iff : g.priorityOf? a = some p ↔ (a, p) ∈ g.index :=
  g.consistent.lookup?_eq_some_iff

theorem members_eq {group : Group} (member : group ∈ g.groups) :
    g.members group.priority = group.members := by
  rw [members, g.consistent.getElem?_eq_some_iff.2 ⟨member, rfl⟩]
  rfl

theorem mem_members {g : Registry} : a ∈ g.members p ↔ g.priorityOf? a = some p := by
  obtain ⟨group, member, rfl⟩ := g.consistent.exists_group p
  rw [members_eq g member, g.consistent.agree group member, priorityOf?_eq_some_iff]

theorem nodup_members (p : Priority) : (g.members p).Nodup := by
  obtain ⟨group, member, rfl⟩ := g.consistent.exists_group p
  rw [members_eq g member]
  exact g.consistent.once group member

theorem tryInsert_of_tracked (tracked : g.priorityOf? a ≠ none) (p : Priority) :
    g.tryInsert a p = (false, g) := by
  rw [tryInsert, dif_neg tracked]

theorem tryErase_of_untracked (untracked : g.priorityOf? a = none) :
    g.tryErase a = (none, g) := by
  unfold tryErase
  split
  · rfl
  · rename_i p tracked
    rw [untracked] at tracked
    cases tracked

theorem fst_tryInsert (a : Activity) (p : Priority) :
    (g.tryInsert a p).1 = true ↔ g.priorityOf? a = none := by
  unfold tryInsert
  split <;> simp [*]

theorem fst_tryErase (a : Activity) : (g.tryErase a).1 = g.priorityOf? a := by
  unfold tryErase
  split <;> simp [*]

theorem index_insert (untracked : g.priorityOf? a = none) (p : Priority) :
    (g.insert a p).index = g.index ++ [(a, p)] := by
  rw [insert, tryInsert, dif_pos untracked]

/-- A new activity comes last in the group of its priority. -/
theorem groups_insert (untracked : g.priorityOf? a = none) (p : Priority) :
    (g.insert a p).groups =
      g.groups.map fun group => if group.priority = p then group.push a else group := by
  rw [insert, tryInsert, dif_pos untracked]
  exact g.consistent.modify_eq_map _ p

theorem index_erase (a : Activity) :
    (g.erase a).index = g.index.filter fun entry => entry.1 ≠ a := by
  unfold erase tryErase
  split
  · rename_i untracked
    refine (List.filter_eq_self.2 fun entry member => ?_).symm
    have other : entry.1 ≠ a := by
      rintro rfl
      exact lookup?_eq_none_iff.1 untracked (List.mem_map_of_mem member)
    simpa using other
  · rfl

/-- An activity that is forgotten leaves its group, and the others keep their order. -/
theorem groups_erase (a : Activity) :
    (g.erase a).groups = g.groups.map fun group => group.erase a := by
  have absent : ∀ group ∈ g.groups, a ∉ group.members → group.erase a = group := by
    intro group _ other
    have same : group.members.filter (fun b => b ≠ a) = group.members := by
      refine List.filter_eq_self.2 fun b hb => ?_
      have ne : b ≠ a := fun h => other (h ▸ hb)
      simpa using ne
    rw [Group.erase, same]
  unfold erase tryErase
  split
  · rename_i untracked
    refine ((List.map_congr_left fun group member => ?_).trans (List.map_id _)).symm
    exact absent group member (g.consistent.not_mem untracked member)
  · rename_i p tracked
    refine (g.consistent.modify_eq_map _ p).trans (List.map_congr_left fun group member => ?_)
    by_cases same : group.priority = p
    · rw [if_pos same]
    · rw [if_neg same]
      refine (absent group member fun ha => same ?_).symm
      rw [g.consistent.agree group member, ← priorityOf?_eq_some_iff] at ha
      exact Option.some.inj (ha.symm.trans tracked)

end

theorem priorityOf?_insert {g : Registry} (untracked : g.priorityOf? a = none) (b : Activity) :
    (g.insert a p).priorityOf? b = if b = a then some p else g.priorityOf? b := by
  have hf : g.index.find? (fun entry => entry.1 = a) = none := Option.map_eq_none_iff.1 untracked
  rw [priorityOf?, index_insert g untracked]
  by_cases h : b = a
  · subst h
    simp [lookup?, List.find?_append, hf]
  · simp [priorityOf?, lookup?, List.find?_append, h, Ne.symm h]

theorem priorityOf?_erase {g : Registry} (b : Activity) :
    (g.erase a).priorityOf? b = if b = a then none else g.priorityOf? b := by
  rw [priorityOf?, index_erase]
  by_cases h : b = a
  · subst h
    simp [lookup?, List.find?_eq_none]
  · simp only [priorityOf?, lookup?, List.find?_filter, if_neg h]
    congr 2
    funext entry
    by_cases he : entry.1 = b <;> simp [he, h]

end Registry

end Quiesce
