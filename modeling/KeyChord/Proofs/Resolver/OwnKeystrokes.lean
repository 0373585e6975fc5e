import KeyChord.Proofs.Registry.Scan
import KeyChord.Proofs.Resolver.Log

/-!
# Commands fire for their own keystrokes only

Whatever happens to a resolver, a command fires only at the end of its own keybinding, typed in one
go: the keystrokes of a chord are never left over from something that was broken, cancelled or too
late, and none of them counts for two commands.

The module introduces:

* `TypedInOneGo window keys`: the entries of `window` hold exactly the keystrokes `keys`, each in
  time after the one before, and nothing interrupts them.
* `AllConsumed window`: every keystroke of `window` was consumed without a command.
* `LogInv past r`: the invariant of runs. The chord that is pending in `r` has been typed in one go
  at the end of `past`, and its deadline is that of its last keystroke.

One event preserves the invariant (`logInv_step`), and so does a run (`logInv_of_log_eq`). The main
statement is `fires_after_own_keystrokes`.
-/

namespace KeyChord.Resolver

/-- The entries hold exactly the given keystrokes, typed in one go. -/
structure TypedInOneGo (window : List Entry) (keys : List Keystroke) : Prop where
  /-- These are the keystrokes. -/
  keys_eq : (keypresses window).map Keypress.key = keys
  /-- The first entry is the first keystroke. -/
  begins : ∃ e ∈ window.head?, e.keypress?.isSome
  /-- No entry interrupts the keystrokes. -/
  undisturbed : ∀ e ∈ window, ¬e.Interrupts
  /-- Each keystroke arrives before the deadline that the one before it has set. -/
  in_time : (keypresses window).IsChain fun a b => b.now < a.now + a.timeout.ticks

/-- Every keystroke of the entries was consumed without a command. -/
def AllConsumed (window : List Entry) : Prop :=
  ∀ p ∈ keypresses window, p.resolution = ⟨true, none⟩

/-- The keystrokes have been typed in one go at the end of the log and consumed, and a chord of
them waits until the deadline. -/
def Waiting (past : List Entry) (keys : List Keystroke) (deadline : Nat) : Prop :=
  ∃ window, window <:+ past ∧ TypedInOneGo window keys ∧ AllConsumed window ∧
    ∀ p ∈ (keypresses window).getLast?, deadline = p.now + p.timeout.ticks

/-- The invariant of runs: `past` is the log so far, and `r` the resolver that it has led to. -/
structure LogInv (past : List Entry) (r : Resolver) : Prop where
  /-- The registry is reachable. -/
  reachable : r.registry.Reachable
  /-- The machine is sound. -/
  sound : r.machine.Sound
  /-- The pending chord has been typed at the end of the log. -/
  waiting : ∀ chord ∈ r.machine.pending, ∀ timer ∈ r.machine.timer,
    Waiting past chord.keystrokes timer.deadline

/-! ## Windows of a log -/

section Window

variable {window past : List Entry} {keys : List Keystroke} {e : Entry} {p : Keypress}

/-- The keystrokes of some entries and one that is no keystroke. -/
theorem keypresses_append_none (hnone : e.keypress? = none) :
    keypresses (window ++ [e]) = keypresses window := by
  rw [keypresses, List.filterMap_append, List.filterMap_cons_none hnone, List.filterMap_nil,
    List.append_nil]
  rfl

/-- The keystrokes of some entries and one more keystroke. -/
theorem keypresses_append_some (hp : e.keypress? = some p) :
    keypresses (window ++ [e]) = keypresses window ++ [p] := by
  rw [keypresses, List.filterMap_append, List.filterMap_cons_some hp, List.filterMap_nil]
  rfl

/-- A keystroke does not interrupt keystrokes. -/
theorem not_interrupts_of_keypress? (hp : e.keypress? = some p) : ¬e.Interrupts := by
  rw [Entry.keypress?] at hp
  rw [Entry.Interrupts]
  split at hp
  next hevent _ => rw [hevent]; exact id
  next => cases hp

/-- One keystroke is typed in one go. -/
theorem typedInOneGo_singleton (hp : e.keypress? = some p) : TypedInOneGo [e] [p.key] where
  keys_eq := by rw [keypresses, List.filterMap_cons_some hp]; rfl
  begins := ⟨e, rfl, by rw [hp]; rfl⟩
  undisturbed e' he' := by
    rw [List.mem_singleton.mp he']
    exact not_interrupts_of_keypress? hp
  in_time := by
    rw [keypresses, List.filterMap_cons_some hp]
    exact List.isChain_singleton p

/-- A window that begins with a keystroke still does so when it goes on. -/
theorem TypedInOneGo.begins_append (h : TypedInOneGo window keys) :
    ∃ e' ∈ (window ++ [e]).head?, e'.keypress?.isSome := by
  obtain ⟨first, hfirst, hsome⟩ := h.begins
  refine ⟨first, ?_, hsome⟩
  rw [List.head?_append, Option.mem_def.mp hfirst]
  rfl

/-- Entries that neither interrupt nor are keystrokes may follow. -/
theorem TypedInOneGo.append_quiet (h : TypedInOneGo window keys) (hnone : e.keypress? = none)
    (hquiet : ¬e.Interrupts) : TypedInOneGo (window ++ [e]) keys where
  keys_eq := by rw [keypresses_append_none hnone, h.keys_eq]
  begins := h.begins_append
  undisturbed e' he' := by
    rcases List.mem_append.mp he' with hmem | hmem
    · exact h.undisturbed e' hmem
    · rw [List.mem_singleton.mp hmem]
      exact hquiet
  in_time := by rw [keypresses_append_none hnone]; exact h.in_time

/-- A keystroke that arrives before the deadline of the last one may follow. -/
theorem TypedInOneGo.append_keypress (h : TypedInOneGo window keys) (hp : e.keypress? = some p)
    (hlt : ∀ q ∈ (keypresses window).getLast?, p.now < q.now + q.timeout.ticks) :
    TypedInOneGo (window ++ [e]) (keys ++ [p.key]) where
  keys_eq := by rw [keypresses_append_some hp, List.map_append, h.keys_eq]; rfl
  begins := h.begins_append
  undisturbed e' he' := by
    rcases List.mem_append.mp he' with hmem | hmem
    · exact h.undisturbed e' hmem
    · rw [List.mem_singleton.mp hmem]
      exact not_interrupts_of_keypress? hp
  in_time := by
    rw [keypresses_append_some hp]
    refine List.isChain_append.mpr ⟨h.in_time, List.isChain_singleton p, fun q hq p' hp' => ?_⟩
    cases hp'
    exact hlt q hq

/-- No keystroke of an empty window is left to be consumed. -/
theorem allConsumed_nil : AllConsumed [] := by
  intro p hp
  cases hp

/-- A window of consumed keystrokes lies behind every keystroke that fired a command. -/
theorem AllConsumed.suffix_of_fired (h : AllConsumed window) {front back : List Entry}
    (hsuffix : window <:+ front ++ e :: back) (hp : e.keypress? = some p)
    (hfired : p.resolution.command ≠ none) : window <:+ back := by
  -- Otherwise the window would contain the keystroke that fired, which is not a consumed one.
  rcases List.suffix_or_suffix_of_suffix hsuffix (List.suffix_append front (e :: back)) with hw | hw
  · rcases List.suffix_cons_iff.mp hw with rfl | hback
    · have hmem : p ∈ keypresses (e :: back) := by
        rw [keypresses, List.filterMap_cons_some hp]
        exact List.mem_cons_self
      rw [h p hmem] at hfired
      exact absurd rfl hfired
    · exact hback
  · have hmem : p ∈ keypresses window := by
      rw [keypresses, List.mem_filterMap]
      exact ⟨e, hw.subset List.mem_cons_self, hp⟩
    rw [h p hmem] at hfired
    exact absurd rfl hfired

end Window

/-! ## The invariant of runs -/

section Invariant

variable {past : List Entry} {r : Resolver}

/-- What a keystroke does, from what the machine makes of it. -/
theorem step_keystroke {k : Keystroke} {context : Context} {now : Nat}
    {outcome : Chord.Outcome} {m : Chord.Machine}
    (h : r.machine.handle r.registry context k now = (outcome, m)) :
    r.step (.keystroke k context now) =
      (.resolution (.ofOutcome outcome), { r with machine := m }) := by
  rw [step, handle, h]

/-- Whatever a keystroke is looked up behind has been typed in one go at the end of the log, and
the keystroke follows in time. -/
theorem LogInv.exists_window (h : LogInv past r) {k : Keystroke} {context : Context} {now : Nat}
    {typed : List Keystroke} (htyped : r.machine.LooksUp r.registry context k now typed) :
    ∃ window, window <:+ past ∧ AllConsumed window ∧
      TypedInOneGo (window ++ [r.entry (.keystroke k context now)]) (typed ++ [k]) := by
  have hkey := keypress?_entry_keystroke (r := r) k context now
  -- Keystrokes that are looked up by themselves need nothing before them, whichever way they got
  -- there: the machine is idle, the chord has expired, or the keystroke has broken it.
  by_cases hnil : typed = []
  · subst hnil
    exact ⟨[], List.nil_suffix, allConsumed_nil, typedInOneGo_singleton hkey⟩
  · obtain rfl : typed = r.machine.inTime now := by
      rcases htyped with h | ⟨h, -⟩
      · exact h
      · exact absurd h hnil
    obtain ⟨chord, timer, hchord, htimer, hlt, hkeys⟩ := h.sound.exists_of_inTime_ne_nil hnil
    obtain ⟨window, hsuffix, htyped, hconsumed, hdeadline⟩ := h.waiting chord hchord timer htimer
    rw [hkeys]
    refine ⟨window, hsuffix, hconsumed, htyped.append_keypress hkey fun q hq => ?_⟩
    rw [← hdeadline q hq]
    exact hlt

/-- An idle resolver satisfies the invariant, whatever has happened before. -/
theorem logInv_of_idle (hreach : r.registry.Reachable) (hsound : r.machine.Sound)
    (hidle : r.machine.pending = none) : LogInv past r where
  reachable := hreach
  sound := hsound
  waiting chord hchord := by
    rw [hidle] at hchord
    cases hchord

/-- An event that is no keystroke preserves the invariant. -/
theorem LogInv.step_quiet (h : LogInv past r) {event : Event}
    (hnone : (r.entry event).keypress? = none) :
    LogInv (past ++ [r.entry event]) (r.step event).2 := by
  have hreach := reachable_step h.reachable event
  have hsound := sound_machine_step h.sound event
  rcases machine_step event hnone with ⟨hquiet, hpending, htimer⟩ | ⟨-, hidle⟩
  · -- The window of the pending chord goes on with the event.
    refine ⟨hreach, hsound, fun chord hchord timer htimer' => ?_⟩
    rw [hpending] at hchord
    rw [htimer] at htimer'
    obtain ⟨window, ⟨front, rfl⟩, htyped, hconsumed, hdeadline⟩ :=
      h.waiting chord hchord timer htimer'
    refine ⟨window ++ [r.entry event], ⟨front, by rw [List.append_assoc]⟩,
      htyped.append_quiet hnone hquiet, ?_, ?_⟩
    · rw [AllConsumed, keypresses_append_none hnone]
      exact hconsumed
    · rw [keypresses_append_none hnone]
      exact hdeadline
  · exact logInv_of_idle hreach hsound hidle

/-- A keystroke preserves the invariant: the chord that it makes or keeps pending ends with it. -/
theorem LogInv.step_keystroke (h : LogInv past r) (k : Keystroke) (context : Context) (now : Nat) :
    LogInv (past ++ [r.entry (.keystroke k context now)])
      (r.step (.keystroke k context now)).2 := by
  have hreach := reachable_step h.reachable (.keystroke k context now)
  have hsound := sound_machine_step h.sound (.keystroke k context now)
  have hhandling := Chord.Machine.handling_handle h.sound r.registry context k now
  generalize hafter : r.machine.handle r.registry context k now = after at hhandling
  have hstep := Resolver.step_keystroke hafter
  cases hhandling with
  | recorded hrecording =>
    refine logInv_of_idle hreach hsound ?_
    rw [hstep]
    exact h.sound.recording hrecording
  | fires => exact logInv_of_idle hreach hsound (by rw [hstep]; rfl)
  | breaks => exact logInv_of_idle hreach hsound (by rw [hstep]; rfl)
  | misses => exact logInv_of_idle hreach hsound (by rw [hstep]; rfl)
  | waits hrecording htyped =>
    refine ⟨hreach, hsound, fun chord hchord timer htimer => ?_⟩
    rw [hstep] at hchord htimer
    cases hchord
    cases htimer
    -- The keystroke is the last of the chord that is pending now.
    obtain ⟨window, ⟨front, rfl⟩, hconsumed, hwindow⟩ := h.exists_window htyped
    have hkey := keypress?_entry_keystroke (r := r) k context now
    have hresolution : (r.handle context k now).1 = ⟨true, none⟩ := by
      rw [handle, hafter]
      rfl
    refine ⟨window ++ [r.entry (.keystroke k context now)], ⟨front, by rw [List.append_assoc]⟩,
      hwindow, fun p hp => ?_, fun p hp => ?_⟩
    · rw [keypresses_append_some hkey] at hp
      rcases List.mem_append.mp hp with hmem | hmem
      · exact hconsumed p hmem
      · rw [List.mem_singleton.mp hmem]
        exact hresolution
    · rw [keypresses_append_some hkey, List.getLast?_concat] at hp
      cases hp
      rfl

/-- Every event preserves the invariant. -/
theorem logInv_step (h : LogInv past r) (event : Event) :
    LogInv (past ++ [r.entry event]) (r.step event).2 := by
  cases event with
  | keystroke k context now => exact h.step_keystroke k context now
  | _ => exact h.step_quiet rfl

/-- Wherever a log is cut, the invariant holds there. -/
theorem logInv_of_log_eq (h : LogInv past r) {events : List Event} {front back : List Entry}
    {e : Entry} (hlog : r.log events = front ++ e :: back) :
    LogInv (past ++ front) e.before ∧ e = e.before.entry e.event := by
  -- The induction is on the events; what has been logged before moves over to `past`.
  induction events generalizing past r front with
  | nil => simp [log] at hlog
  | cons event events ih =>
    rw [log] at hlog
    cases front with
    | nil =>
      rw [List.nil_append] at hlog
      obtain ⟨rfl, -⟩ := List.cons.inj hlog
      rw [List.append_nil]
      exact ⟨h, rfl⟩
    | cons first front =>
      rw [List.cons_append] at hlog
      obtain ⟨rfl, hrest⟩ := List.cons.inj hlog
      have := ih (logInv_step h event) hrest
      rwa [List.append_assoc] at this

end Invariant

/-! ## Firing -/

/-- Whenever a command fires in a run, its effective keybinding has just been typed in one go: the
keystrokes up to now are exactly its own, those before the last were consumed without a command,
each arrived in time after the one before, and nothing interrupted them. The command is active in
the context of the last keystroke, and no active command with this keybinding is registered before
it. All these keystrokes come after whatever has fired before, so that none counts twice. -/
theorem fires_after_own_keystrokes {registry : Registry} (hreach : registry.Reachable)
    (timeout : Timeout) (policy : BreakPolicy) (events : List Event) {past future : List Entry}
    {last : Entry} {p : Keypress} {id : String}
    (hlog : (ofRegistry registry timeout policy).log events = past ++ last :: future)
    (hp : last.keypress? = some p) (hid : p.resolution.command = some id) :
    ∃ c kb window,
      last.before.registry.get? id = some c ∧ c.effectiveKeys = some kb ∧
      c.isEnabled p.context = true ∧
      (∀ d, last.before.registry.Before d c → d.isEnabled p.context = true →
        d.effectiveKeys ≠ some kb) ∧
      window <:+ past ∧ TypedInOneGo (window ++ [last]) kb.keystrokes ∧ AllConsumed window ∧
      ∀ front back earlier q, past = front ++ earlier :: back → earlier.keypress? = some q →
        q.resolution.command ≠ none → window <:+ back := by
  have hstart : LogInv [] (ofRegistry registry timeout policy) :=
    logInv_of_idle hreach (Chord.Machine.sound_idle timeout policy) rfl
  obtain ⟨hinv, hlast⟩ := logInv_of_log_eq hstart hlog
  rw [List.nil_append] at hinv
  rw [hlast] at hp
  obtain ⟨hevent, -, hresolution⟩ := exists_of_keypress?_entry hp
  have hindexed := hinv.reachable.indexed
  have hhandling := Chord.Machine.handling_handle hinv.sound last.before.registry p.context p.key
    p.now
  rw [hresolution, handle] at hid
  generalize last.before.machine.handle last.before.registry p.context p.key p.now = after
    at hhandling hid
  -- Only one way of handling a keystroke answers a command.
  cases hhandling with
  | recorded => cases hid
  | waits => cases hid
  | breaks => cases hid
  | misses => cases hid
  | @fires typed c hrecording htyped hexact =>
    cases hid
    obtain ⟨window, hsuffix, hconsumed, hwindow⟩ := hinv.exists_window htyped
    obtain ⟨hmem, ⟨kb, hkb, hkeys⟩, henabled, hfirst⟩ :=
      hindexed.firstExact?_eq_some_iff.mp hexact
    refine ⟨c, kb, window, (hindexed.get?_eq_some_iff c.id c).mpr ⟨hmem, rfl⟩, hkb, henabled,
      fun d hd hde hdk => hfirst d hd hde ⟨kb, hdk, hkeys⟩, hsuffix, ?_, hconsumed, ?_⟩
    · rw [hlast, hevent, hkeys]
      exact hwindow
    · rintro front back earlier q rfl hq hfired
      exact hconsumed.suffix_of_fired hsuffix hq hfired

/-- A keystroke that starts a chord. -/
def ctrlK : Keystroke := ⟨"k", { ctrl := true }⟩

/-- A keystroke that ends a chord. -/
def ctrlS : Keystroke := ⟨"s", { ctrl := true }⟩

/-- A command of two keystrokes. -/
def openSettings : Command :=
  .ofKeys "settings" ⟨[ctrlK, ctrlS], by decide⟩

/-- A chord is typed in one go, although the clock is read between its keystrokes. -/
theorem fires_after_tick :
    ∃ past last,
      (ofRegistry (.ofList [openSettings]) default default).log
          [.keystroke ctrlK .empty 0, .tick 10, .keystroke ctrlS .empty 20] = past ++ [last] ∧
        ∃ window, window <:+ past ∧ AllConsumed window ∧
          TypedInOneGo (window ++ [last]) [ctrlK, ctrlS] := by
  have hreach := Registry.reachable_ofList [openSettings]
  have hindexed := hreach.indexed
  have hcommands : (Registry.ofList [openSettings]).commands = [openSettings] :=
    Registry.commands_ofList (by decide)
  generalize Registry.ofList [openSettings] = registry at hreach hindexed hcommands
  have hidle := Chord.Machine.sound_idle default default
  -- The first keystroke makes a chord pending.
  have hpending : (Chord.Machine.idle default default).handle registry .empty ctrlK 0 =
      (.pending, (Chord.Machine.idle default default).await [ctrlK] 0) := by
    have hnil : (Chord.Machine.idle default default).inTime 0 = [] :=
      Chord.Machine.inTime_of_idle rfl
    rw [hidle.handle_waits rfl, hnil, List.nil_append]
    · rw [hnil, hindexed.hasExtension_iff_exists (by decide), hcommands]
      exact ⟨openSettings, List.mem_singleton_self _, by decide, rfl⟩
    · exact absurd hnil
  -- The second keystroke arrives in time and completes the chord.
  have hfires : (((Chord.Machine.idle default default).await [ctrlK] 0).handle registry .empty
      ctrlS 20).1 = .fire "settings" := by
    have htyped : ((Chord.Machine.idle default default).await [ctrlK] 0).inTime 20 = [ctrlK] :=
      Chord.Machine.inTime_of_lt rfl rfl (by decide)
    rw [(Chord.Machine.sound_await (by decide) rfl).handle_fires rfl (c := openSettings)]
    · rfl
    · rw [htyped, hindexed.firstExact?_eq_some_iff, hcommands]
      refine ⟨List.mem_singleton_self _, by decide, rfl, fun d hd => ?_⟩
      rw [Registry.Before, hcommands] at hd
      exact absurd hd.length_le (Nat.not_succ_le_self 1)
    · rw [htyped]
      exact fun h => (by cases h)
  have hlog : (ofRegistry registry default default).log
      [.keystroke ctrlK .empty 0, .tick 10, .keystroke ctrlS .empty 20] =
        [(ofRegistry registry default default).entry (.keystroke ctrlK .empty 0),
          entry ⟨registry, (Chord.Machine.idle default default).await [ctrlK] 0⟩ (.tick 10)] ++
        entry ⟨registry, (Chord.Machine.idle default default).await [ctrlK] 0⟩
          (.keystroke ctrlS .empty 20) :: [] := by
    rw [log, step_keystroke hpending]
    rfl
  have hcommand : (Resolution.ofOutcome (((Chord.Machine.idle default default).await [ctrlK]
      0).handle registry .empty ctrlS 20).1).command = some "settings" := by
    rw [hfires]
    rfl
  obtain ⟨c, kb, window, hget, hkeys, -, -, hsuffix, htyped, hconsumed, -⟩ :=
    fires_after_own_keystrokes hreach default default _ hlog rfl hcommand
  obtain ⟨hmem, -⟩ := (hindexed.get?_eq_some_iff _ _).mp hget
  rw [hcommands] at hmem
  cases List.mem_singleton.mp hmem
  cases hkeys
  exact ⟨_, _, hlog, window, hsuffix, hconsumed, htyped⟩

end KeyChord.Resolver
