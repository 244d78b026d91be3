import Mathlib.Algebra.GroupWithZero.Nat
import Mathlib.Data.List.Induction
import Mathlib.Data.List.Nodup
import Quiesce.Registry
/-!
# What a registry keeps of its history

A registry is changed by registering and forgetting activities, in any order and any number of
times. What became of one activity is found by looking at the operations on it alone (`entryOf?`):
the latest registration that was not a repetition, unless the activity was forgotten since. The
registry knows just this of every activity (`priorityOf?_after`), and the members of a group stand
in the order of these registrations (`inOrder_after`). That index and groups agree comes with the
registry; here it is put as a count (`count_members`, `size_eq`).
-/

namespace Quiesce

inductive RegistryAction
  | insert (a : Activity) (p : Priority)
  | erase (a : Activity)
deriving DecidableEq, Repr

def RegistryAction.activity : RegistryAction → Activity
  | insert a _ | erase a => a

namespace Registry

variable {g : Registry} {x : RegistryAction} {history : List RegistryAction} {a b : Activity}
  {p : Priority} {group : Group}

def step (g : Registry) : RegistryAction → Registry
  | .insert a p => g.insert a p
  | .erase a => g.erase a

def after (g : Registry) (history : List RegistryAction) : Registry :=
  history.foldl step g

/-- A registration that stands. -/
structure Entry where
  /-- The number of operations before it. -/
  since : Nat
  priority : Priority
deriving DecidableEq, Repr

/-- What becomes of the registration of `a` at an operation that has `now` others before it. -/
def follow (a : Activity) (now : Nat) (entryOf? : Option Entry) : RegistryAction → Option Entry
  | .insert b p => if b = a then entryOf?.or (some ⟨now, p⟩) else entryOf?
  | .erase b => if b = a then none else entryOf?

/-- The registration of `a` that stands after a history. -/
def entryOf? (a : Activity) (history : List RegistryAction) : Option Entry :=
  history.zipIdx.foldl (fun entryOf? (x, now) => follow a now entryOf? x) none

/-- `a` was registered before `b` was. -/
def Earlier (history : List RegistryAction) (a b : Activity) : Prop :=
  ∃ e e', entryOf? a history = some e ∧ entryOf? b history = some e' ∧ e.since < e'.since

/-! ## One operation -/

@[simp] theorem after_concat (g : Registry) (history : List RegistryAction) (x : RegistryAction) :
    g.after (history ++ [x]) = (g.after history).step x := by
  simp [after]

theorem entryOf?_concat (a : Activity) (history : List RegistryAction) (x : RegistryAction) :
    entryOf? a (history ++ [x]) = follow a history.length (entryOf? a history) x := by
  simp [entryOf?, List.zipIdx_append]

theorem follow_of_ne {now : Nat} {e? : Option Entry} (ne : x.activity ≠ a) :
    follow a now e? x = e? := by
  cases x with
  | insert b p | erase b => exact if_neg ne

theorem follow_of_some {now : Nat} {e : Entry} (a b : Activity) (p : Priority) :
    follow a now (some e) (.insert b p) = some e := by
  rw [follow, Option.some_or, ite_self]

theorem follow_eq_some {now : Nat} {e? : Option Entry} {e : Entry}
    (h : follow a now e? x = some e) : e? = some e ∨ e.since = now := by
  cases x with
  | insert b p =>
    by_cases same : b = a
    · cases e? with
      | none =>
        simp [follow, same] at h
        exact .inr (h ▸ rfl)
      | some e' =>
        rw [follow_of_some] at h
        exact .inl h
    · rw [follow, if_neg same] at h
      exact .inl h
  | erase b =>
    by_cases same : b = a
    · rw [follow, if_pos same] at h
      cases h
    · rw [follow, if_neg same] at h
      exact .inl h

theorem insert_of_tracked (tracked : g.priorityOf? a ≠ none) (p : Priority) : g.insert a p = g := by
  rw [insert, tryInsert_of_tracked g tracked]

/-- An operation does to the priority of an activity what it does to its registration. -/
theorem priorityOf?_step {now : Nat} {e? : Option Entry}
    (h : g.priorityOf? a = e?.map Entry.priority) :
    (g.step x).priorityOf? a = (follow a now e? x).map Entry.priority := by
  cases x with
  | insert b p =>
    by_cases untracked : g.priorityOf? b = none
    · rw [step, priorityOf?_insert untracked, follow]
      by_cases same : a = b
      · subst same
        have none : e? = none := by
          rw [h] at untracked
          exact Option.map_eq_none_iff.1 untracked
        simp [none]
      · rw [if_neg same, if_neg (Ne.symm same), h]
    · rw [step, insert_of_tracked untracked, follow, h]
      by_cases same : b = a
      · subst same
        rw [h] at untracked
        cases e? with
        | none => exact absurd rfl untracked
        | some e => simp
      · rw [if_neg same]
  | erase b =>
    rw [step, priorityOf?_erase, follow]
    by_cases same : a = b
    · simp [same]
    · rw [if_neg same, if_neg (Ne.symm same), h]

/-! ## Index and groups -/

/-- An activity is a member once in the group of its priority, and of no other group. -/
theorem count_members (member : group ∈ g.groups) (a : Activity) :
    group.members.count a = if g.priorityOf? a = some group.priority then 1 else 0 := by
  have agree : a ∈ group.members ↔ g.priorityOf? a = some group.priority := by
    rw [g.consistent.agree group member, priorityOf?_eq_some_iff]
  simp only [List.Nodup.count (g.consistent.once group member), agree]

theorem levels_eq (g : Registry) :
    g.groups.map (fun group => group.priority.level) = List.range Priority.count := by
  have levels : g.groups.map Group.priority = Priority.all := g.consistent.levels
  have h : (g.groups.map Group.priority).map Priority.level = List.range Priority.count := by
    rw [levels]
    decide
  rwa [List.map_map] at h

theorem perm_members (g : Registry) :
    (g.groups.flatMap Group.members).Perm (g.index.map (·.1)) := by
  have distinct : g.groups.Pairwise fun group group' => group.priority ≠ group'.priority := by
    have nodup : (g.groups.map Group.priority).Nodup := g.consistent.levels ▸ by decide
    exact List.pairwise_map.1 nodup
  have nodup : (g.groups.flatMap Group.members).Nodup := by
    refine List.nodup_flatMap.2 ⟨g.consistent.once, distinct.imp_of_mem ?_⟩
    intro group group' hg hg' ne a ha ha'
    rw [g.consistent.agree _ hg, ← priorityOf?_eq_some_iff] at ha
    rw [g.consistent.agree _ hg', ← priorityOf?_eq_some_iff, ha] at ha'
    exact ne (Option.some.inj ha')
  refine (List.perm_ext_iff_of_nodup nodup g.consistent.keys).2 fun a => ?_
  rw [List.mem_flatMap, List.mem_map]
  constructor
  · rintro ⟨group, hg, ha⟩
    exact ⟨_, (g.consistent.agree group hg a).1 ha, rfl⟩
  · rintro ⟨⟨b, p⟩, hb, rfl⟩
    obtain ⟨group, hg, rfl⟩ := g.consistent.exists_group p
    exact ⟨group, hg, (g.consistent.agree group hg b).2 hb⟩

theorem size_eq (g : Registry) :
    g.size = (g.groups.map fun group => group.members.length).sum := by
  have length := g.perm_members.length_eq
  rw [List.length_flatMap, List.length_map] at length
  exact length.symm

/-! ## Histories -/

theorem since_lt {e : Entry} (h : entryOf? a history = some e) : e.since < history.length := by
  induction history using List.reverseRecOn with
  | nil => cases h
  | append_singleton history x ih =>
    rw [entryOf?_concat] at h
    rw [List.length_append, List.length_singleton]
    rcases follow_eq_some h with before | now
    · have := ih before
      omega
    · omega

/-- The registry knows of every activity what the operations on it say. -/
theorem priorityOf?_after (history : List RegistryAction) (a : Activity) :
    (empty.after history).priorityOf? a = (entryOf? a history).map Entry.priority := by
  induction history using List.reverseRecOn with
  | nil => rfl
  | append_singleton history x ih =>
    rw [after_concat, entryOf?_concat]
    exact priorityOf?_step ih

theorem entryOf?_eq_none_iff :
    entryOf? a history = none ↔ (empty.after history).priorityOf? a = none := by
  rw [priorityOf?_after, Option.map_eq_none_iff]

theorem entryOf?_of_mem (member : group ∈ (empty.after history).groups) (ha : a ∈ group.members) :
    ∃ e, entryOf? a history = some e := by
  rw [← Option.ne_none_iff_exists', Ne, entryOf?_eq_none_iff]
  exact fun untracked => (empty.after history).consistent.not_mem untracked member ha

theorem Earlier.congr {history' : List RegistryAction} (h : Earlier history a b)
    (ha : entryOf? a history' = entryOf? a history)
    (hb : entryOf? b history' = entryOf? b history) :
    Earlier history' a b := by
  obtain ⟨e, e', found, found', lt⟩ := h
  exact ⟨e, e', ha.trans found, hb.trans found', lt⟩

theorem pairwise_concat {members : List Activity} (h : members.Pairwise (Earlier history))
    (others : ∀ a ∈ members, x.activity ≠ a) : members.Pairwise (Earlier (history ++ [x])) := by
  refine h.imp_of_mem fun {a b} ha hb earlier => earlier.congr ?_ ?_
  · rw [entryOf?_concat, follow_of_ne (others a ha)]
  · rw [entryOf?_concat, follow_of_ne (others b hb)]

theorem pairwise_push (untracked : (empty.after history).priorityOf? a = none)
    (member : group ∈ (empty.after history).groups)
    (h : group.members.Pairwise (Earlier (history ++ [.insert a p]))) :
    (group.push a).members.Pairwise (Earlier (history ++ [.insert a p])) := by
  rw [Group.members_push, List.pairwise_append]
  refine ⟨h, List.pairwise_singleton _ _, fun b hb c hc => ?_⟩
  rw [List.mem_singleton] at hc
  subst hc
  have ne : c ≠ b := by
    rintro rfl
    exact (empty.after history).consistent.not_mem untracked member hb
  obtain ⟨e, found⟩ := entryOf?_of_mem member hb
  refine ⟨e, ⟨history.length, p⟩, ?_, ?_, since_lt found⟩
  · rw [entryOf?_concat, follow_of_ne (x := .insert c p) ne, found]
  · rw [entryOf?_concat, entryOf?_eq_none_iff.2 untracked, follow, if_pos rfl, Option.none_or]

/-- The members of a group stand in the order of their registrations. -/
theorem inOrder_after (history : List RegistryAction) :
    ∀ group ∈ (empty.after history).groups, group.members.Pairwise (Earlier history) := by
  induction history using List.reverseRecOn with
  | nil =>
    intro group member
    obtain ⟨p, -, rfl⟩ := List.mem_map.1 member
    exact .nil
  | append_singleton history x ih =>
    intro group member
    rw [after_concat] at member
    cases x with
    | insert a p =>
      by_cases untracked : (empty.after history).priorityOf? a = none
      · rw [step, groups_insert _ untracked] at member
        obtain ⟨group, old, rfl⟩ := List.mem_map.1 member
        have others : ∀ b ∈ group.members, a ≠ b := by
          rintro b hb rfl
          exact (empty.after history).consistent.not_mem untracked old hb
        have kept := pairwise_concat (x := .insert a p) (ih group old) others
        by_cases here : group.priority = p
        · rw [if_pos here]
          exact pairwise_push untracked old kept
        · rw [if_neg here]
          exact kept
      · rw [step, insert_of_tracked untracked] at member
        have same : ∀ b, entryOf? b (history ++ [.insert a p]) = entryOf? b history := by
          intro b
          rw [entryOf?_concat]
          by_cases hb : a = b
          · subst hb
            rw [← entryOf?_eq_none_iff] at untracked
            obtain ⟨e, found⟩ := Option.ne_none_iff_exists'.1 untracked
            rw [found, follow_of_some]
          · exact follow_of_ne hb
        exact (ih group member).imp fun {b c} earlier => earlier.congr (same b) (same c)
    | erase a =>
      rw [step, groups_erase] at member
      obtain ⟨group, old, rfl⟩ := List.mem_map.1 member
      refine pairwise_concat ((ih group old).sublist List.filter_sublist) fun b hb same => ?_
      subst same
      simp [Group.members_erase, RegistryAction.activity] at hb

/-! ## The law -/

/-- **Index and groups agree, and tell the history.** After any operations there is one group for
each level, ascending. An activity is a member of the group of its priority, once, and of no other;
the number of activities is that of all members. The priority of an activity is that of its
registration, and the members of a group stand in the order of their registrations. To insert
answers yes exactly for an activity that is not registered, which comes last in the group of the
priority; otherwise it changes nothing. To erase answers with the priority of the activity, which
leaves its group, and nobody else is touched. -/
theorem index_and_groups_agree (history : List RegistryAction) :
    let g := empty.after history
    g.groups.map (fun group => group.priority.level) = List.range Priority.count ∧
    (∀ group ∈ g.groups, ∀ a,
      group.members.count a = if g.priorityOf? a = some group.priority then 1 else 0) ∧
    g.size = (g.groups.map fun group => group.members.length).sum ∧
    (∀ a, g.priorityOf? a = (entryOf? a history).map Entry.priority) ∧
    (∀ group ∈ g.groups, group.members.Pairwise (Earlier history)) ∧
    (∀ a p,
      ((g.tryInsert a p).1 = true ↔ g.priorityOf? a = none) ∧
      ((g.tryInsert a p).1 = false → (g.tryInsert a p).2 = g) ∧
      ((g.tryInsert a p).1 = true →
        (∀ b, (g.tryInsert a p).2.priorityOf? b = if b = a then some p else g.priorityOf? b) ∧
        (g.tryInsert a p).2.groups =
          g.groups.map fun group => if group.priority = p then group.push a else group)) ∧
    ∀ a,
      (g.tryErase a).1 = g.priorityOf? a ∧
      ((g.tryErase a).1 = none → (g.tryErase a).2 = g) ∧
      (∀ b, (g.tryErase a).2.priorityOf? b = if b = a then none else g.priorityOf? b) ∧
      (g.tryErase a).2.groups = g.groups.map fun group => group.erase a := by
  intro g
  refine ⟨levels_eq g, fun group => count_members, size_eq g, priorityOf?_after history,
    inOrder_after history, ?_, ?_⟩
  · intro a p
    refine ⟨fst_tryInsert g a p, fun refused => ?_, fun inserted => ?_⟩
    · refine insert_of_tracked (fun untracked => ?_) p
      rw [(fst_tryInsert g a p).2 untracked] at refused
      cases refused
    · have untracked := (fst_tryInsert g a p).1 inserted
      exact ⟨priorityOf?_insert untracked, groups_insert g untracked p⟩
  · intro a
    refine ⟨fst_tryErase g a, fun none => ?_, priorityOf?_erase, groups_erase g a⟩
    rw [fst_tryErase] at none
    rw [tryErase_of_untracked g none]

/-- An activity that is registered again stays where it is; one that was forgotten comes back last.
-/
theorem index_and_groups_agree_again :
    let a : Activity := ⟨"a", "same"⟩
    let b : Activity := ⟨"b", "same"⟩
    let history : List RegistryAction :=
      [.insert a .first, .insert b .first, .insert b .last, .erase a, .insert a .first]
    let g := empty.after history
    g.members .first = [b, a] ∧ Earlier history b a ∧ (g.tryInsert b .last).2 = g := by
  intro a b history g
  obtain ⟨-, -, -, -, order, insert, -⟩ := index_and_groups_agree history
  have there : (⟨.first, [b, a]⟩ : Group) ∈ g.groups := by decide
  refine ⟨by decide, ?_, (insert b .last).2.1 (by decide)⟩
  exact List.rel_of_pairwise_cons (order _ there) List.mem_cons_self

end Registry

end Quiesce
