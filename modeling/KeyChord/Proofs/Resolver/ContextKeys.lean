import KeyChord.Proofs.Resolver.SameRuns

/-!
# The context keys that count

A context reaches a resolver through the when-clauses that are in force, and these read the keys
that they list. What an application puts under any other key makes no difference.

The module introduces:

* `registry.contextKeys`: the keys that are listed by the when-clauses in force.
* `context.AgreesOn keys context'`: each of the keys has the same value in both contexts, or in
  neither.
* `Resolver.Agreeing r events events'`: the same happens, but for the contexts of keystrokes, which
  agree on the keys that the registry lists when the keystroke arrives.

An expression lists each key that it mentions once, where it occurs first
(`When.Expr.pairwise_idxOf_keys`), and its value depends on no other key (`When.Expr.eval_congr`).
The main statement is `trace_eq_of_agreeing`.
-/

namespace KeyChord

/-- Each of the keys has the same value in both contexts, or has none in either. -/
def Context.AgreesOn (keys : List String) (context context' : Context) : Prop :=
  ∀ key ∈ keys, context.get? key = context'.get? key

/-- The keys that the when-clause in force lists. -/
def Command.contextKeys (c : Command) : List String :=
  (c.effectiveWhen.bind When.Clause.expr).elim [] When.Expr.keys

/-- The keys that the when-clauses in force list. -/
def Registry.contextKeys (r : Registry) : List String :=
  r.commands.flatMap Command.contextKeys

/-! ## Expressions -/

namespace When.Expr

/-- Without its repetitions, a list has its elements in the order in which they occur first. -/
theorem pairwise_idxOf_eraseDups {α : Type} [BEq α] [LawfulBEq α] (l : List α) :
    l.eraseDups.Pairwise fun a b => l.idxOf a < l.idxOf b := by
  induction l using List.reverseRecOn with
  | nil => simp
  | append_singleton l c ih =>
    have hfront : ∀ {a}, a ∈ l.eraseDups → (l ++ [c]).idxOf a = l.idxOf a := by
      intro a ha
      exact List.idxOf_append_of_mem (List.mem_eraseDups.mp ha)
    have hsame : l.eraseDups.Pairwise fun a b => (l ++ [c]).idxOf a < (l ++ [c]).idxOf b := by
      apply ih.imp_of_mem
      intro a b ha hb hlt
      rwa [hfront ha, hfront hb]
    -- The last element is left out if it has occurred before, and comes last otherwise.
    rw [List.eraseDups_append]
    by_cases hc : c ∈ l
    · simpa [List.removeAll, hc] using hsame
    · have hlast : ∀ a ∈ l.eraseDups, (l ++ [c]).idxOf a < (l ++ [c]).idxOf c := by
        intro a ha
        have hlt := List.idxOf_lt_length_of_mem (List.mem_eraseDups.mp ha)
        rw [hfront ha, List.idxOf_append_of_notMem hc]
        omega
      simp only [List.removeAll, List.elem_eq_mem, hc, decide_false, Bool.not_false,
        List.filter_cons_of_pos, List.filter_nil, List.eraseDups_cons, List.eraseDups_nil]
      exact List.pairwise_append.mpr ⟨hsame, List.pairwise_singleton _ _, by simpa using hlast⟩

/-- Keys are listed in the order in which they occur first. -/
theorem pairwise_idxOf_keys (e : Expr) :
    e.keys.Pairwise fun key key' => e.occurrences.idxOf key < e.occurrences.idxOf key' := by
  rw [keys_eq_eraseDups]
  exact pairwise_idxOf_eraseDups e.occurrences

/-- No key is listed twice. -/
theorem nodup_keys (e : Expr) : e.keys.Nodup := by
  apply e.pairwise_idxOf_keys.imp
  rintro key _ hlt rfl
  exact Nat.lt_irrefl _ hlt

/-- The value of an expression depends only on the keys that it mentions. -/
theorem eval_congr {e : Expr} {context context' : Context}
    (h : ∀ key, e.Mentions key → context.get? key = context'.get? key) :
    e.eval context = e.eval context' := by
  induction e with
  | key key => simp only [eval, Context.isTruthy, h key rfl]
  | not inner ih => simp only [eval, ih h]
  | equals key value | differs key value => simp only [eval, h key rfl]
  | and left right ihl ihr | or left right ihl ihr =>
    have hl := ihl fun key hkey => h key (Or.inl hkey)
    have hr := ihr fun key hkey => h key (Or.inr hkey)
    simp only [eval, hl, hr]

end When.Expr

/-! ## Lookups -/

/-- A command is active in both of two contexts that agree on the keys that it lists, or in
neither. -/
theorem Command.isEnabled_congr {c : Command} {context context' : Context}
    (h : context.AgreesOn c.contextKeys context') : c.isEnabled context = c.isEnabled context' := by
  rw [isEnabled, isEnabled]
  rw [contextKeys] at h
  cases hwhen : c.effectiveWhen with
  | none => rfl
  | some clause =>
    rw [Option.all_some, Option.all_some, When.Clause.holds, When.Clause.holds]
    rw [hwhen, Option.bind_some] at h
    cases hexpr : clause.expr with
    | none => rfl
    | some e =>
      rw [hexpr] at h
      rw [Option.any_some, Option.any_some]
      apply When.Expr.eval_congr
      intro key hkey
      exact h key (When.Expr.mem_keys.mpr hkey)

namespace Registry

variable {r : Registry} {context context' : Context}

/-- A registry looks alike in contexts that agree on the keys that it lists. -/
theorem looksLike_of_agreesOn (h : context.AgreesOn r.contextKeys context') :
    r.LooksLike context r context' := by
  have henabled : ∀ sequence, ∀ c ∈ r.candidates sequence,
      c.isEnabled context = c.isEnabled context' := by
    intro sequence c hc
    apply Command.isEnabled_congr
    intro key hkey
    exact h key (List.mem_flatMap.mpr ⟨c, mem_commands_of_mem_candidates sequence hc, hkey⟩)
  constructor
  · intro sequence
    rw [firstExact?_eq_head?, firstExact?_eq_head?]
    apply congrArg List.head?
    apply List.filter_congr
    intro c hc
    rw [triggers, triggers, henabled sequence c hc]
  · intro sequence _
    have hextensions : r.extensions sequence context = r.extensions sequence context' := by
      apply List.filter_congr
      intro c hc
      rw [awaits, awaits, henabled sequence c hc]
    rw [Bool.eq_iff_iff, hasExtension_iff, hasExtension_iff, hextensions]

end Registry

/-! ## Runs -/

namespace Resolver

/-- The events are the same, or the same keystroke in contexts that agree on the keys. -/
inductive Event.AgreesOn (keys : List String) : Event → Event → Prop
  | same (event : Event) : AgreesOn keys event event
  | keystroke (k : Keystroke) {context context' : Context} (now : Nat) :
      context.AgreesOn keys context' →
        AgreesOn keys (.keystroke k context now) (.keystroke k context' now)

/-- The same happens in two runs, but for the contexts of keystrokes, which agree on the keys that
the registry lists when the keystroke arrives. -/
inductive Agreeing : Resolver → List Event → List Event → Prop
  | nil (r : Resolver) : Agreeing r [] []
  | cons {r : Resolver} {event event' : Event} {events events' : List Event} :
      event.AgreesOn r.registry.contextKeys event' → Agreeing (r.step event).2 events events' →
        Agreeing r (event :: events) (event' :: events')

variable {r : Resolver}

/-- A keystroke comes to the same in contexts that agree on the keys that the registry lists. -/
theorem handle_eq_of_agreesOn {context context' : Context}
    (h : context.AgreesOn r.registry.contextKeys context') (k : Keystroke) (now : Nat) :
    r.handle context k now = r.handle context' k now := by
  have hhandle := (Registry.looksLike_of_agreesOn h).handle_eq r.machine k now
  simp only [handle, hhandle]

theorem step_eq_of_agreesOn {event event' : Event}
    (h : event.AgreesOn r.registry.contextKeys event') : r.step event = r.step event' := by
  cases h with
  | same => rfl
  | keystroke k now hcontext => simp only [step, handle_eq_of_agreesOn hcontext]

/-- An expression lists the keys that it mentions, each once and in the order of their first
occurrence. Two runs of a resolver are the same, answer by answer and machine by machine, if the
contexts of each keystroke agree on the keys that are listed by the when-clauses then in force. A
keystroke therefore comes to the same if any other key is given a value or loses it. -/
theorem trace_eq_of_agreeing {events events' : List Event} (h : Agreeing r events events') :
    (∀ e : When.Expr, e.keys.Nodup ∧ (∀ key, key ∈ e.keys ↔ e.Mentions key) ∧
        e.keys.Pairwise fun key key' => e.occurrences.idxOf key < e.occurrences.idxOf key') ∧
      r.trace events = r.trace events' ∧
      ∀ key ∉ r.registry.contextKeys, ∀ (context : Context) (value : Value) (k : Keystroke) now,
        r.handle (context.set key value) k now = r.handle context k now ∧
          r.handle (context.erase key) k now = r.handle context k now := by
  refine ⟨fun e => ⟨e.nodup_keys, fun _ => When.Expr.mem_keys, e.pairwise_idxOf_keys⟩, ?_, ?_⟩
  · induction h with
    | nil => rfl
    | cons hevent _ ih =>
      have hstep := step_eq_of_agreesOn hevent
      rw [trace, trace, ih, hstep]
  · intro key hkey context value k now
    have hne : ∀ key' ∈ r.registry.contextKeys, key' ≠ key := by
      rintro key' hkey' rfl
      exact hkey hkey'
    constructor
    · apply handle_eq_of_agreesOn
      intro key' hkey'
      rw [Context.get?_set, if_neg (hne key' hkey')]
    · apply handle_eq_of_agreesOn
      intro key' hkey'
      rw [Context.get?_erase, if_neg (hne key' hkey')]

/-- The chord is typed, and the editor gets the focus in between. -/
def focusing : List Event :=
  [.keystroke ctrlK .empty 0, .keystroke ctrlS (Context.empty.set "editorFocus" (.bool true)) 10]

/-- The same, beside a terminal. -/
def focusingElsewhere : List Event :=
  [.keystroke ctrlK (Context.empty.set "terminal" (.bool true)) 0,
    .keystroke ctrlS
      ((Context.empty.set "terminal" (.bool true)).set "editorFocus" (.bool true)) 10]

theorem contextKeys_settingsInEditor :
    (Registry.ofList [settingsInEditor, openSettings]).contextKeys =
      ["editorFocus", "editorReadonly"] := by
  have hcommands : (Registry.ofList [settingsInEditor, openSettings]).commands =
      [settingsInEditor, openSettings] := Registry.commands_ofList (by decide)
  have hsettings : settingsInEditor.contextKeys = ["editorFocus", "editorReadonly"] := by
    have hwhen : settingsInEditor.effectiveWhen = some (.ofSource editorClause) := rfl
    rw [Command.contextKeys, hwhen, Option.bind_some, expr_editorClause]
    rfl
  rw [Registry.contextKeys, hcommands, List.flatMap_cons, hsettings]
  rfl

/-- No when-clause asks for the terminal. -/
theorem trace_focusing :
    Agreeing (ofRegistry (.ofList [settingsInEditor, openSettings]) default default) focusing
        focusingElsewhere ∧
      trace (ofRegistry (.ofList [settingsInEditor, openSettings]) default default) focusing =
        trace (ofRegistry (.ofList [settingsInEditor, openSettings]) default default)
          focusingElsewhere := by
  have hkeys := contextKeys_settingsInEditor
  have hagreeing : Agreeing (ofRegistry (.ofList [settingsInEditor, openSettings]) default default)
      focusing focusingElsewhere := by
    -- Neither keystroke changes the registry.
    refine .cons (.keystroke _ _ ?_) (.cons (.keystroke _ _ ?_) (.nil _))
    · show Context.AgreesOn (Registry.ofList [settingsInEditor, openSettings]).contextKeys _ _
      simp [hkeys, Context.AgreesOn]
    · show Context.AgreesOn (Registry.ofList [settingsInEditor, openSettings]).contextKeys _ _
      simp [hkeys, Context.AgreesOn]
  exact ⟨hagreeing, (trace_eq_of_agreeing hagreeing).2.1⟩

end Resolver

end KeyChord
