import Quiesce.Proofs.Reports
/-!
# What an observer sees

An observer sees *marks*: the creation of a controller, the events that it creates, and the resets,
of which no event tells. `Mark.latest` is what the observer goes by. The events among the marks are
those of the journal (`kinds_marks`), and what lies between two of them there can be said of the
latest mark at the moment of the later one (`latest_between`).
-/

namespace Quiesce

/-- Something that an observer of a controller sees. -/
inductive Mark
  /-- The controller is created. -/
  | created
  /-- An event of this kind is created. -/
  | event (kind : EventKind)
  /-- A reset. -/
  | reset
deriving DecidableEq, Repr

namespace Mark

variable {kinds : List EventKind} {m : Mark} {ms earlier later : List Mark}

def kind? : Mark → Option EventKind
  | event kind => some kind
  | created | reset => none

/-- The mark is no event, or it is one of the given kinds. -/
def isAmong (kinds : List EventKind) : Mark → Bool
  | event kind => kinds.contains kind
  | created | reset => true

/-- The latest among the creation, the resets and the events of the given kinds. -/
def latest (kinds : List EventKind) (ms : List Mark) : Mark :=
  (ms.filter (isAmong kinds)).getLastD .created

theorem latest_append (kinds : List EventKind) (ms ms' : List Mark) :
    latest kinds (ms ++ ms') = (ms'.filter (isAmong kinds)).getLastD (latest kinds ms) := by
  simp [latest, List.getLastD_eq_getLast?, List.getLast?_append, Option.getD_or]

theorem latest_mem (among : m.isAmong kinds) :
    latest kinds (earlier ++ m :: later) ∈ m :: later := by
  rw [latest_append, List.filter_cons_of_pos among, List.getLastD_cons]
  refine List.mem_cons.2 ((List.mem_cons.1 List.getLastD_mem_cons).imp_right fun last => ?_)
  exact List.filter_sublist.subset last

/-- The marks of an action that tells of these kinds, as far as an observer looks at them. -/
def ofAction (kinds : List EventKind) (x : Action) (told : List EventKind) : List Mark :=
  (if x = .reset then [.reset] else []) ++ (told.filter kinds.contains).map event

theorem filter_isAmong {kinds' : List EventKind} (sub : kinds ⊆ kinds') (ms : List Mark) :
    (ms.filter (isAmong kinds')).filter (isAmong kinds) = ms.filter (isAmong kinds) := by
  rw [List.filter_filter]
  refine List.filter_congr fun m _ => ?_
  cases m with
  | created | reset => rfl
  | event kind => simpa [isAmong] using fun member : kind ∈ kinds => sub member

theorem exists_first {k : EventKind} {ks : List EventKind} (split : ms.filterMap kind? = k :: ks) :
    ∃ earlier later, ms = earlier ++ event k :: later ∧ earlier.filterMap kind? = [] ∧
      later.filterMap kind? = ks := by
  obtain ⟨earlier, m, later, rfl, none, kind, rest⟩ := List.filterMap_eq_cons_iff.1 split
  cases m with
  | created | reset => cases kind
  | event k' =>
    cases kind
    exact ⟨earlier, later, rfl, List.filterMap_eq_nil_iff.2 none, rest⟩

theorem exists_split {k k' : EventKind} {xs ys zs : List EventKind}
    (split : ms.filterMap kind? = xs ++ k :: ys ++ k' :: zs) :
    ∃ earlier between later, ms = earlier ++ event k :: between ++ event k' :: later ∧
      between.filterMap kind? = ys := by
  obtain ⟨front, back, rfl, hfront, hback⟩ := List.filterMap_eq_append_iff.1 split
  obtain ⟨front', back', rfl, -, hback'⟩ := List.filterMap_eq_append_iff.1 hfront
  obtain ⟨e, between, rfl, -, rfl⟩ := exists_first hback'
  obtain ⟨gap, later, rfl, none, -⟩ := exists_first hback
  exact ⟨front' ++ e, between ++ gap, later, by simp, by simp [none]⟩

end Mark

namespace Controller

variable {c d c₀ : Controller} {x : Action} {history : List Action} {kind : EventKind}
  {kinds : List EventKind} {m : Mark}

/-- What an observer sees of one action. -/
def marksOf (c : Controller) (x : Action) : List Mark :=
  (if x = .reset then [.reset] else []) ++ (c.created (c.step x)).map fun e => .event e.kind

/-- What an observer sees of a history, oldest first. -/
def marks (c : Controller) : List Action → List Mark
  | [] => []
  | x :: later => c.marksOf x ++ (c.step x).marks later

/-! ## One action -/

/-- Of the kinds that are not about listeners an observer sees what is told. -/
theorem filter_marksOf (server : ∀ kind ∈ kinds, kind.isSubscriberEvent = false) :
    (c.marksOf x).filter (Mark.isAmong kinds) =
      Mark.ofAction kinds x (c.told (c.step x)) := by
  have told : (c.told (c.step x)).filter kinds.contains =
      ((c.created (c.step x)).map (·.kind)).filter kinds.contains := by
    rw [Controller.told, List.filter_filter]
    refine List.filter_congr fun kind _ => ?_
    cases among : kinds.contains kind with
    | false => rfl
    | true => simp [server kind (List.contains_iff_mem.1 among)]
  rw [Mark.ofAction, told, marksOf, List.filter_append, List.filter_map, List.filter_map,
    List.map_map]
  congr 1
  split <;> rfl

theorem filterMap_marksOf (c : Controller) (x : Action) :
    (c.marksOf x).filterMap Mark.kind? = (c.created (c.step x)).map (·.kind) := by
  have none : (if x = .reset then [Mark.reset] else []).filterMap Mark.kind? = [] := by
    split <;> rfl
  rw [marksOf, List.filterMap_append, none, List.nil_append, List.filterMap_map]
  exact congrFun List.filterMap_eq_map _

theorem told_of_mem_marksOf (member : .event kind ∈ c.marksOf x)
    (server : kind.isSubscriberEvent = false) : kind ∈ c.told (c.step x) := by
  have seen : kind ∈ (c.marksOf x).filterMap Mark.kind? := List.mem_filterMap.2 ⟨_, member, rfl⟩
  rw [filterMap_marksOf] at seen
  exact List.mem_filter.2 ⟨seen, by simp [server]⟩

/-- An action tells of one thing at most. -/
theorem Step.told_le (hs : Step c x d) (h : c.Coherent) : (c.told d).length ≤ 1 := by
  cases own : x.run? with
  | none =>
    rcases hs.told_of_request own with silent | ⟨kind, told, -⟩
    · simp [silent]
    · simp [told]
  | some id =>
    rcases hs.of_run? own with rfl | ⟨r, p, stage, run, active, move⟩
    · simp [told_of_hub]
    · rw [move.told h run active]
      exact Option.length_toList_le

theorem length_marksOf (h : c.Coherent)
    (server : ∀ kind ∈ kinds, kind.isSubscriberEvent = false) :
    ((c.marksOf x).filter (Mark.isAmong kinds)).length ≤ 1 := by
  rw [filter_marksOf server]
  by_cases hx : x = .reset
  · subst hx
    have silent : c.told (c.step .reset) = [] := told_of_hub (by simp [step, reset])
    simp [silent, Mark.ofAction]
  · rw [Mark.ofAction, if_neg hx, List.nil_append, List.length_map]
    exact Nat.le_trans (List.length_filter_le _ _) ((step_spec c x).told_le h)

theorem Step.journal (hs : Step c x d) :
    d.hub.journal.toList = c.hub.journal.toList ++ c.created d := by
  suffices grows : ∃ es, d.hub.journal.toList = c.hub.journal.toList ++ es by
    obtain ⟨es, journal⟩ := grows
    rw [created_of_journal journal, journal]
  rcases hs.hub with same | ⟨n, -, -, emitted⟩ | ⟨y, -, listeners⟩
  · exact ⟨[], by simp [same]⟩
  · obtain ⟨drops, journal, -⟩ := Hub.journal_emit c.hub n
    exact ⟨c.hub.next n :: drops, emitted ▸ journal⟩
  · rcases Hub.journal_stepListeners c.hub y with journal | ⟨name, info, journal⟩
    · exact ⟨[], by simp [listeners, journal]⟩
    · exact ⟨[c.hub.next (.panicked name info)], by simp [listeners, journal]⟩

/-! ## Histories -/

theorem marks_append (c : Controller) (h h' : List Action) :
    c.marks (h ++ h') = c.marks h ++ (c.after h).marks h' := by
  induction h generalizing c with
  | nil => rfl
  | cons x h ih => simp [marks, ih]

theorem marks_concat (c : Controller) (h : List Action) (x : Action) :
    c.marks (h ++ [x]) = c.marks h ++ (c.after h).marksOf x := by
  simp [marks_append, marks]

theorem New.journal (new : c₀.New) : c₀.hub.journal = #[] := by
  obtain ⟨config, listeners, rfl⟩ := new
  have added : ∀ (ls : List Listener) (h : Hub), (ls.foldl Hub.add h).journal = h.journal := by
    intro ls
    induction ls with
    | nil => exact fun h => rfl
    | cons l ls ih =>
      intro h
      rw [List.foldl_cons, ih, Hub.add]
      split <;> rfl
  exact added listeners _

theorem kinds_marks (new : c₀.New) (history : List Action) :
    (c₀.marks history).filterMap Mark.kind? =
      (c₀.after history).hub.journal.toList.map (·.kind) := by
  induction history using List.reverseRecOn with
  | nil => simp [marks, new.journal]
  | append_singleton h x ih =>
    rw [marks_concat, List.filterMap_append, ih, filterMap_marksOf, after_concat,
      (step_spec _ x).journal, List.map_append]

theorem created_notMem_marks (c : Controller) (history : List Action) :
    Mark.created ∉ c.marks history := by
  induction history generalizing c with
  | nil => simp [marks]
  | cons x h ih => simp [marks, marksOf, ih]

/-- A mark was seen at some action. What was seen before it was seen before this action, up to other
kinds. -/
theorem exists_marksOf (new : c₀.New) (server : ∀ kind ∈ kinds, kind.isSubscriberEvent = false)
    (among : m.isAmong kinds) {earlier later : List Mark}
    (split : c₀.marks history = earlier ++ m :: later) :
    ∃ before x rest, history = before ++ x :: rest ∧ m ∈ (c₀.after before).marksOf x ∧
      Mark.latest kinds earlier = Mark.latest kinds (c₀.marks before) := by
  induction history using List.reverseRecOn generalizing later with
  | nil => simp [marks] at split
  | append_singleton h x ih =>
    rw [marks_concat] at split
    rcases List.append_eq_append_iff.1 split with ⟨here, rfl, seen⟩ | ⟨between, earlier', seen⟩
    · refine ⟨h, x, [], rfl, by simp [seen], ?_⟩
      -- One action has no two marks of these kinds.
      have one := length_marksOf (coherent_after new h) server (x := x)
      rw [seen, List.filter_append, List.filter_cons_of_pos among, List.length_append,
        List.length_cons] at one
      have none : here.filter (Mark.isAmong kinds) = [] := List.length_eq_zero_iff.1 (by omega)
      rw [Mark.latest_append, none]
      rfl
    · cases between with
      | nil =>
        rw [List.nil_append] at seen
        exact ⟨h, x, [], rfl, seen ▸ List.mem_cons_self, by simp [earlier']⟩
      | cons m' between =>
        cases seen
        obtain ⟨before, y, rest, rfl, member, same⟩ := ih earlier'
        exact ⟨before, y, rest ++ [x], by simp, member, same⟩

/-- Of two events of the journal the later one was told at some action. The latest mark before this
action was the earlier one, or it lies between the two. -/
theorem latest_between (new : c₀.New) (kinds : List EventKind)
    (server : ∀ kind ∈ kinds, kind.isSubscriberEvent = false) {k k' : EventKind}
    (among : k ∈ kinds) (among' : k' ∈ kinds) {xs ys zs : List EventKind}
    (split : (c₀.after history).hub.journal.toList.map (·.kind) = xs ++ k :: ys ++ k' :: zs) :
    ∃ before x rest, history = before ++ x :: rest ∧
      k' ∈ (c₀.after before).told ((c₀.after before).step x) ∧
      Mark.latest kinds (c₀.marks before) ≠ .created ∧
      ∀ kind, Mark.latest kinds (c₀.marks before) = .event kind → kind = k ∨ kind ∈ ys := by
  rw [← kinds_marks new] at split
  obtain ⟨earlier, between, later, seen, rfl⟩ := Mark.exists_split split
  obtain ⟨before, x, rest, rfl, member, same⟩ :=
    exists_marksOf new server (by simpa [Mark.isAmong] using among') seen
  have last : Mark.latest kinds (c₀.marks before) ∈ .event k :: between :=
    same ▸ Mark.latest_mem (by simpa [Mark.isAmong] using among)
  refine ⟨before, x, rest, rfl, told_of_mem_marksOf member (server _ among'), ?_, ?_⟩
  · intro created
    rw [created] at last
    rcases List.mem_cons.1 last with other | between'
    · cases other
    · exact created_notMem_marks c₀ (before ++ x :: rest) (seen ▸ by simp [between'])
  · intro kind event
    rw [event] at last
    rcases List.mem_cons.1 last with first | between'
    · cases first
      exact .inl rfl
    · exact .inr (List.mem_filterMap.2 ⟨_, between', rfl⟩)

end Controller

end Quiesce
