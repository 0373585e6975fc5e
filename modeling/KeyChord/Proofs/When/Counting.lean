import KeyChord.Proofs.When.Parsing
import KeyChord.When.Counting

/-!
# The counter of levels

The procedures of the parser with a counter do what the functions of the parser do that are told how
many levels remain. They come to an end, they never take one off a counter at zero, and those that
succeed leave the counter as they found it.

The module introduces:

* `s.rest`: the tokens that remain in a state.
* `s.CountsTo s'`: between the states, the counter was never above the limit by more than one.
* `m.Reads s a s'` and `m.Stops s error`: a computation succeeds, or gives up on the tokens.
* `m.Follows s depth parsed`: a computation does what was parsed, and leaves the counter at the
  depth.
* `m.Extends m'`: the second computation gives every result of the first.

There is a lemma on `Follows` for each procedure. What a computation reads does not depend on tokens
further on, and `Reads` carries this along. How much fuel a procedure needs follows from the number
of tokens that remain, and more fuel changes no result.

The main statement is `Procedure.call_returns`. `Counting.run_whole` says that the parser with a
counter agrees with the other one on all tokens.
-/

namespace KeyChord.When

variable {α β : Type}

/-! ## States -/

namespace Progress

/-- The tokens that remain. -/
def rest (s : Progress) : List Token :=
  s.tokens.drop s.position

/-- On the way from one state to the other, the counter was never above the limit by more than
one. -/
def CountsTo (s s' : Progress) : Prop :=
  ∃ depths, s'.depths = depths ++ s.depths ∧ ∀ n ∈ depths, n ≤ depthLimit + 1

variable {s s' s'' : Progress} {token : Token} {tokens : List Token}

theorem getElem?_position (s : Progress) : s.tokens[s.position]? = s.rest.head? :=
  List.head?_drop.symm

theorem position_lt_length (h : s.rest ≠ []) : s.position < s.tokens.length := by
  by_contra hle
  exact h (List.drop_eq_nil_iff.mpr (Nat.le_of_not_lt hle))

theorem rest_advance (h : s.rest = token :: tokens) : s.advance.rest = tokens := by
  show s.tokens.drop (s.position + 1) = tokens
  rw [← List.tail_drop]
  exact congrArg List.tail h

theorem CountsTo.refl (s : Progress) : s.CountsTo s :=
  ⟨[], rfl, nofun⟩

theorem CountsTo.trans (h : s.CountsTo s') (h' : s'.CountsTo s'') : s.CountsTo s'' := by
  obtain ⟨depths, hdepths, hle⟩ := h
  obtain ⟨depths', hdepths', hle'⟩ := h'
  refine ⟨depths' ++ depths, ?_, List.forall_mem_append.mpr ⟨hle', hle⟩⟩
  rw [hdepths', hdepths, List.append_assoc]

theorem countsTo_setDepth {n : Nat} (s : Progress) (h : n ≤ depthLimit + 1) :
    s.CountsTo (s.setDepth n) :=
  ⟨[n], rfl, List.forall_mem_singleton.mpr h⟩

end Progress

/-! ## The functions of the parser -/

/-- What is parsed as a group, a comparison or a key. The parser has no function of its own for
this. -/
def parsePrimary (levels : Nat) : List Token → Parsed
  | ⟨.not, offset⟩ :: _ => .error (.unexpectedToken ⟨.not, offset⟩)
  | tokens => parseUnary levels tokens

theorem parsePrimary_of_ne {levels : Nat} {tokens : List Token}
    (h : ∀ token ∈ tokens.head?, token.kind ≠ .not) :
    parsePrimary levels tokens = parseUnary levels tokens := by
  rw [parsePrimary]
  rintro offset tokens rfl
  exact h _ rfl rfl

namespace Procedure

/-- The function of the parser for a procedure. -/
def parse : Procedure → Nat → List Token → Parsed
  | chain c => (Category.chain c).parse
  | unary => parseUnary
  | primary => parsePrimary

theorem parse_procedure (category : Category) : category.procedure.parse = category.parse := by
  cases category <;> rfl

/-- Whatever is parsed has tokens. -/
theorem length_lt_of_parse {p : Procedure} {levels : Nat} {tokens rest : List Token} {e : Expr}
    (h : p.parse levels tokens = .ok (e, rest)) : rest.length < tokens.length := by
  have hcategory : ∀ category : Category, category.parse levels tokens = .ok (e, rest) →
      rest.length < tokens.length := by
    intro category h
    obtain ⟨d, front, rfl, hfront, -⟩ := derives_of_parse h
    have hne : front ≠ [] := by
      rintro rfl
      exact d.kinds_ne_nil hfront.symm
    have hpos := List.length_pos_iff.mpr hne
    rw [List.length_append]
    omega
  cases p with
  | chain c => exact hcategory (.chain c) h
  | unary => exact hcategory .unary h
  | primary =>
    rw [parse] at h
    unfold parsePrimary at h
    split at h
    · cases h
    · exact hcategory .unary h

/-- How many calls a procedure makes at most before a token is read, itself included. -/
def rank : Procedure → Nat
  | chain .or => 4
  | chain .and => 3
  | unary => 2
  | primary => 1

theorem rank_operand (c : Connective) : c.operand.procedure.rank + 1 = (chain c).rank := by
  cases c <;> rfl

theorem rank_le (p : Procedure) : p.rank ≤ 4 := by
  rcases p with (- | -) | - | - <;> decide

end Procedure

namespace Counting

variable {m : Counting α} {f : α → Counting β} {a : α} {b : β} {s s' s'' : Progress}
  {failure : Failure} {error : ParseError} {depth depth' : Nat}
  {parsed : Except ParseError (α × List Token)} {parsed' : Except ParseError (β × List Token)}

/-! ## Success and failure -/

theorem run_bind (m : Counting α) (f : α → Counting β) (s : Progress) :
    (m >>= f).run s =
      match m.run s with
      | none => none
      | some (.error failure, s') => some (.error failure, s')
      | some (.ok a, s') => (f a).run s' := by
  show ((ExceptT.run m).run s).bind _ = _
  rw [Counting.run]
  rcases (ExceptT.run m).run s with - | ⟨- | -, -⟩ <;> rfl

theorem run_bind_ok (h : m.run s = some (.ok a, s')) : (m >>= f).run s = (f a).run s' := by
  rw [run_bind, h]

theorem run_bind_error (h : m.run s = some (.error failure, s')) :
    (m >>= f).run s = some (.error failure, s') := by
  rw [run_bind, h]

/-- The computation succeeds, and passes no token that is not there. It does the same on all tokens
that are the same up to the first one that it does not read. -/
structure Reads (m : Counting α) (s : Progress) (a : α) (s' : Progress) : Prop where
  run_eq : ∀ tokens, tokens.take (s'.position + 1) = s.tokens.take (s'.position + 1) →
    m.run { s with tokens } = some (.ok a, { s' with tokens })
  tokens_eq : s'.tokens = s.tokens
  position_le : s.position ≤ s'.position
  le_length : s.position ≤ s.tokens.length → s'.position ≤ s.tokens.length
  countsTo : s.CountsTo s'

/-- The computation gives up on the tokens. -/
def Stops (m : Counting α) (s : Progress) (error : ParseError) : Prop :=
  ∃ s', m.run s = some (.error (.parse error), s') ∧ s.CountsTo s'

theorem Reads.run (h : m.Reads s a s') : m.run s = some (.ok a, s') := by
  have hsame : { s' with tokens := s.tokens } = s' := by
    rw [← h.tokens_eq]
  rw [← hsame]
  exact h.run_eq s.tokens rfl

theorem Reads.bind (hm : m.Reads s a s') (hf : (f a).Reads s' b s'') :
    (m >>= f).Reads s b s'' where
  run_eq tokens htokens := by
    -- The second computation ends further on, so the tokens are also the same as far as the first.
    have hle : s'.position + 1 ≤ s''.position + 1 := Nat.succ_le_succ hf.position_le
    have hfront : tokens.take (s'.position + 1) = s.tokens.take (s'.position + 1) := by
      simpa only [List.take_take, Nat.min_eq_left hle] using
        congrArg (List.take (s'.position + 1)) htokens
    rw [run_bind_ok (hm.run_eq tokens hfront)]
    refine hf.run_eq tokens ?_
    rw [hm.tokens_eq, htokens]
  tokens_eq := hf.tokens_eq.trans hm.tokens_eq
  position_le := Nat.le_trans hm.position_le hf.position_le
  le_length h := hm.tokens_eq ▸ hf.le_length (hm.tokens_eq ▸ hm.le_length h)
  countsTo := hm.countsTo.trans hf.countsTo

theorem Stops.bind (h : m.Stops s error) : (m >>= f).Stops s error := by
  obtain ⟨s', hrun, hcounts⟩ := h
  exact ⟨s', run_bind_error hrun, hcounts⟩

theorem stops_fail (s : Progress) : Stops (α := α) (fail error) s error :=
  ⟨s, rfl, .refl s⟩

theorem Reads.bind_stops (hm : m.Reads s a s') (hf : (f a).Stops s' error) :
    (m >>= f).Stops s error := by
  obtain ⟨s'', hrun, hcounts⟩ := hf
  exact ⟨s'', (run_bind_ok hm.run).trans hrun, hm.countsTo.trans hcounts⟩

/-- What reads no token and leaves the counter as it is. -/
theorem reads_of_run (h : ∀ tokens, tokens.take (s.position + 1) = s.tokens.take (s.position + 1) →
    m.run { s with tokens } = some (.ok a, { s with tokens })) : m.Reads s a s where
  run_eq := h
  tokens_eq := rfl
  position_le := Nat.le_refl _
  le_length := id
  countsTo := .refl s

theorem reads_pure (a : α) (s : Progress) : Reads (pure a) s a s :=
  reads_of_run fun _ _ => rfl

/-! ## Tokens -/

theorem reads_peek (s : Progress) : peek.Reads s s.rest.head? s := by
  refine reads_of_run fun tokens htokens => ?_
  have hnext : tokens[s.position]? = s.tokens[s.position]? := by
    simpa only [List.getElem?_take_of_lt (Nat.lt_succ_self _)] using
      congrArg (·[s.position]?) htokens
  show some (Except.ok tokens[s.position]?, { s with tokens }) = _
  rw [hnext, s.getElem?_position]

theorem reads_advance (h : s.rest ≠ []) : Reads (modify Progress.advance) s () s.advance where
  run_eq _ _ := rfl
  tokens_eq := rfl
  position_le := Nat.le_succ _
  le_length _ := Progress.position_lt_length h
  countsTo := .refl s

theorem reads_nextOr {token : Token} {tokens : List Token} (h : s.rest = token :: tokens) :
    (nextOr error).Reads s token s.advance := by
  have hpeek := reads_peek s
  rw [h] at hpeek
  have hne : s.rest ≠ [] := by simp [h]
  have hnext : next.Reads s (some token) s.advance :=
    hpeek.bind ((reads_advance hne).bind (reads_pure _ _))
  exact hnext.bind (reads_pure _ _)

theorem stops_nextOr (h : s.rest = []) : (nextOr error).Stops s error := by
  have hpeek := reads_peek s
  rw [h] at hpeek
  have hnext : next.Reads s none s := hpeek.bind (reads_pure _ _)
  exact hnext.bind_stops (stops_fail s)

/-- The next token is read if it is of the kind, and otherwise it stays. -/
theorem eat_cases (kind : TokenKind) (s : Progress) :
    (∃ offset, s.rest = ⟨kind, offset⟩ :: s.advance.rest ∧ (eat kind).Reads s true s.advance) ∨
      (∀ token ∈ s.rest.head?, token.kind ≠ kind) ∧ (eat kind).Reads s false s := by
  have hpeek := reads_peek s
  by_cases hnext : s.rest.head?.map Token.kind = some kind
  · obtain ⟨⟨_, offset⟩, hhead, rfl⟩ := Option.map_eq_some_iff.mp hnext
    obtain ⟨tokens, hrest⟩ := List.head?_eq_some_iff.mp hhead
    have hne : s.rest ≠ [] := by simp [hrest]
    refine Or.inl ⟨offset, ?_, hpeek.bind ?_⟩
    · rw [Progress.rest_advance hrest, hrest]
    · rw [if_pos hnext]
      exact (reads_advance hne).bind (reads_pure _ _)
  · refine Or.inr ⟨fun token htoken hkind => hnext ?_, hpeek.bind ?_⟩
    · rw [Option.mem_def.mp htoken, Option.map_some, hkind]
    · rw [if_neg hnext]
      exact reads_pure _ _

/-! ## The counter -/

theorem reads_depth (s : Progress) : Counting.depth.Reads s s.depth s :=
  reads_of_run fun _ _ => rfl

theorem reads_setDepth {n : Nat} (h : n ≤ depthLimit + 1) :
    (setDepth n).Reads s () (s.setDepth n) where
  run_eq _ _ := rfl
  tokens_eq := rfl
  position_le := Nat.le_refl _
  le_length := id
  countsTo := s.countsTo_setDepth h

theorem reads_descend (h : s.depth < depthLimit) :
    descend.Reads s () (s.setDepth (s.depth + 1)) := by
  refine (reads_depth s).bind ((reads_setDepth (by omega)).bind ((reads_depth _).bind ?_))
  rw [Progress.depth_setDepth, if_neg (Nat.not_lt_of_le h)]
  exact reads_pure _ _

/-- Only where the parser gives up does the counter exceed the limit. -/
theorem stops_descend (h : s.depth = depthLimit) : descend.Stops s .tooDeep := by
  have hset : (setDepth (s.depth + 1)).Reads s () (s.setDepth (s.depth + 1)) :=
    reads_setDepth (by omega)
  refine (reads_depth s).bind_stops (hset.bind_stops ((reads_depth _).bind_stops ?_))
  rw [Progress.depth_setDepth, if_pos (by omega)]
  exact stops_fail _

theorem reads_ascend {n : Nat} (h : s.depth = n + 1) (hn : n ≤ depthLimit) :
    ascend.Reads s () (s.setDepth n) := by
  have hdepth := reads_depth s
  rw [h] at hdepth
  exact hdepth.bind (reads_setDepth (by omega))

/-! ## Doing what is parsed -/

/-- The computation does what was parsed, and leaves the counter at the depth if it succeeds. -/
def Follows (m : Counting α) (s : Progress) (depth : Nat) :
    Except ParseError (α × List Token) → Prop
  | .ok (a, tokens) => ∃ s', m.Reads s a s' ∧ s'.depth = depth ∧ s'.rest = tokens
  | .error error => m.Stops s error

/-- What was parsed is then the outcome, so that there is one. -/
theorem Follows.exists_run (h : m.Follows s depth parsed) :
    ∃ s', m.run s = some ((parsed.map Prod.fst).mapError .parse, s') ∧ s.CountsTo s' := by
  cases parsed with
  | error error => exact h
  | ok p =>
    obtain ⟨s', hreads, -⟩ := h
    exact ⟨s', hreads.run, hreads.countsTo⟩

theorem follows_pure (a : α) (s : Progress) : Follows (pure a) s s.depth (.ok (a, s.rest)) :=
  ⟨s, reads_pure a s, rfl, rfl⟩

theorem follows_fail : Follows (α := α) (fail error) s depth (.error error) :=
  stops_fail s

theorem Reads.follows (hm : m.Reads s a s') (hf : (f a).Follows s' depth parsed') :
    (m >>= f).Follows s depth parsed' := by
  cases parsed' with
  | error error => exact hm.bind_stops hf
  | ok p =>
    obtain ⟨s'', hreads, hdepth, hrest⟩ := hf
    exact ⟨s'', hm.bind hreads, hdepth, hrest⟩

theorem Follows.bind (hm : m.Follows s depth parsed)
    (herror : ∀ error, parsed = .error error → parsed' = .error error)
    (hok : ∀ a s', parsed = .ok (a, s'.rest) → s'.depth = depth →
      (f a).Follows s' depth' parsed') :
    (m >>= f).Follows s depth' parsed' := by
  cases parsed with
  | error error =>
    rw [herror error rfl]
    exact Stops.bind hm
  | ok p =>
    obtain ⟨a, tokens⟩ := p
    obtain ⟨s', hreads, hdepth, rfl⟩ := hm
    exact hreads.follows (hok a s' rfl hdepth)

theorem Follows.map {g : α → β} (hm : m.Follows s depth parsed) :
    (m >>= fun a => pure (g a)).Follows s depth (parsed.map fun p => (g p.1, p.2)) := by
  refine hm.bind (fun error herror => ?_) fun a s' hok hdepth => ?_
  · rw [herror]
    rfl
  · rw [hok, ← hdepth]
    exact follows_pure (g a) s'

/-! ## Comparisons and parentheses -/

theorem follows_value (offset : Nat) (s : Progress) :
    (value offset).Follows s s.depth (parseValue offset s.rest) := by
  cases hrest : s.rest with
  | nil => exact (stops_nextOr hrest).bind
  | cons token tokens =>
    refine (reads_nextOr hrest).follows ?_
    obtain rfl := Progress.rest_advance hrest
    obtain ⟨kind, offset'⟩ := token
    cases kind with
    | string text => exact follows_pure _ _
    | number n => exact follows_pure _ _
    | word text =>
      simp only [parseValue]
      split_ifs <;> exact follows_pure _ _
    | _ => exact follows_fail

theorem follows_comparison (key : String) (offset : Nat) (s : Progress) :
    (comparison key offset).Follows s s.depth (parseComparison key offset s.rest) := by
  obtain ⟨_, hrest, heat⟩ | ⟨hne, heat⟩ := eat_cases .equals s
  · rw [hrest]
    exact heat.follows (follows_value offset s.advance).map
  · refine heat.follows ?_
    obtain ⟨_, hrest, heat'⟩ | ⟨hne', heat'⟩ := eat_cases .differs s
    · rw [hrest]
      exact heat'.follows (follows_value offset s.advance).map
    · have hends : Category.unary.Ends (s.rest.map Token.kind) := by
        intro kind hkind
        rw [List.head?_map] at hkind
        obtain ⟨token, htoken, rfl⟩ := Option.map_eq_some_iff.mp hkind
        exact not_or.mpr ⟨hne token htoken, hne' token htoken⟩
      rw [parseComparison_of_ends hends]
      exact heat'.follows (follows_pure _ _)

theorem follows_close (inner : Expr) (s : Progress) :
    (close inner).Follows s s.depth (parseClose inner s.rest) := by
  cases hrest : s.rest with
  | nil => exact (stops_nextOr hrest).bind
  | cons token tokens =>
    refine (reads_nextOr hrest).follows ?_
    obtain rfl := Progress.rest_advance hrest
    rw [parseClose]
    split_ifs
    · exact follows_pure _ _
    · exact follows_fail

end Counting

/-! ## The procedures -/

namespace Procedure

open Counting

variable {p : Procedure} {c : Connective} {s : Progress} {fuel levels depth : Nat}

/-- With so much fuel, the procedure does what its function does with the levels that the counter
leaves. The fuel has to suffice for the tokens that remain. -/
def FollowsWith (fuel : Nat) (p : Procedure) : Prop :=
  ∀ (s : Progress) (levels : Nat), s.depth + levels = depthLimit →
    4 * s.rest.length + p.rank ≤ fuel → (p.call fuel).Follows s s.depth (p.parse levels s.rest)

/-- With so much fuel, the links of a chain are read as the parser does, and leave the counter where
the chain began. -/
def LinksFollowWith (fuel : Nat) (c : Connective) : Prop :=
  ∀ (s : Progress) (levels base : Nat) (left : Expr), s.depth + levels = depthLimit →
    base ≤ depthLimit → 4 * s.rest.length + 1 ≤ fuel →
      (links c base left fuel).Follows s base (c.parseLinks levels left s.rest)

/-- A procedure is called one level deeper, unless there is none. -/
theorem follows_descend {f : Expr → Counting Expr} {parsed : Parsed} (hp : p.FollowsWith fuel)
    (hs : s.depth + levels = depthLimit) (hfuel : 4 * s.rest.length + p.rank ≤ fuel)
    (hzero : levels = 0 → parsed = .error .tooDeep)
    (herror : ∀ n error, levels = n + 1 → p.parse n s.rest = .error error → parsed = .error error)
    (hok : ∀ n e s', levels = n + 1 → p.parse n s.rest = .ok (e, s'.rest) → s'.depth = s.depth + 1 →
      (f e).Follows s' depth parsed) :
    (descend >>= fun _ => p.call fuel >>= f).Follows s depth parsed := by
  cases levels with
  | zero =>
    rw [hzero rfl]
    exact (stops_descend hs).bind
  | succ n =>
    have hinner : (p.call fuel).Follows (s.setDepth (s.depth + 1)) (s.depth + 1)
        (p.parse n s.rest) := by
      refine hp (s.setDepth (s.depth + 1)) n ?_ hfuel
      rw [Progress.depth_setDepth]
      omega
    refine (reads_descend (by omega)).follows (hinner.bind (fun error => ?_) fun e s' => ?_)
    · exact herror n error rfl
    · exact hok n e s' rfl

theorem linksFollowWith_succ (hoperand : c.operand.procedure.FollowsWith fuel)
    (hlinks : LinksFollowWith fuel c) : LinksFollowWith (fuel + 1) c := by
  intro s levels base left hs hbase hfuel
  rw [links]
  obtain ⟨offset, hrest, heat⟩ | ⟨hne, heat⟩ := eat_cases c.kind s
  · -- The operator has been read, which leaves fuel for the operand; that reads a token too, which
    -- leaves fuel for the other links.
    have hrank := rank_le (.chain c)
    rw [← rank_operand] at hrank
    rw [hrest, List.length_cons] at hfuel
    rw [hrest]
    refine heat.follows (follows_descend hoperand hs (by omega) ?_ ?_ ?_)
    · rintro rfl
      exact parseLinks_zero rfl
    · rintro n error rfl herror
      rw [parse_procedure] at herror
      rw [parseLinks_succ rfl, herror]
    · rintro n right s' rfl hok hdepth
      have hlength := length_lt_of_parse hok
      rw [parse_procedure] at hok
      rw [parseLinks_succ rfl, hok]
      rw [Progress.depth_advance] at hdepth
      exact hlinks s' n base _ (by omega) hbase (by omega)
  · rw [parseLinks_of_ne hne]
    exact heat.follows ((reads_setDepth (by omega)).follows (follows_pure _ _))

theorem followsWith_chain (hoperand : c.operand.procedure.FollowsWith fuel)
    (hlinks : LinksFollowWith fuel c) : (chain c).FollowsWith (fuel + 1) := by
  intro s levels hs hfuel
  rw [← rank_operand] at hfuel
  have hfirst := hoperand s levels hs (by omega)
  rw [call, parse, parse_chain]
  refine (reads_depth s).follows (hfirst.bind (fun error herror => ?_) fun left s' hok hdepth => ?_)
  · rw [parse_procedure] at herror
    rw [herror]
  · have hlength := length_lt_of_parse hok
    rw [parse_procedure] at hok
    rw [hok]
    exact hlinks s' levels s.depth left (by omega) (Nat.le.intro hs) (by omega)

theorem followsWith_primary (hgroup : (chain .or).FollowsWith fuel) :
    primary.FollowsWith (fuel + 1) := by
  intro s levels hs hfuel
  rw [call, parse]
  cases hrest : s.rest with
  | nil =>
    rw [parsePrimary_of_ne (by nofun), parseUnary]
    exact (stops_nextOr hrest).bind
  | cons token tokens =>
    obtain rfl := Progress.rest_advance hrest
    obtain ⟨kind, offset⟩ := token
    rw [hrest, List.length_cons] at hfuel
    refine (reads_nextOr hrest).follows ?_
    -- `!` is for the procedure of negations, which never calls this one in front of it.
    by_cases hnot : kind = .not
    · subst hnot
      exact follows_fail
    · rw [parsePrimary_of_ne (by rintro token ⟨⟩; exact hnot)]
      cases kind with
      | openParen =>
        have hgroupFuel : 4 * s.advance.rest.length + 4 ≤ fuel := by
          simp only [rank] at hfuel
          omega
        refine follows_descend hgroup hs hgroupFuel ?_ ?_ ?_
        · rintro rfl
          rw [parseUnary]
        · rintro n error rfl herror
          rw [parse, Category.parse] at herror
          rw [parseUnary, herror]
        · rintro n inner s' rfl hok hdepth
          rw [parse, Category.parse] at hok
          rw [parseUnary, hok]
          exact (reads_ascend hdepth (Nat.le.intro hs)).follows (follows_close inner _)
      | word key =>
        rw [parseUnary]
        exact follows_comparison key offset s.advance
      | not => exact absurd rfl hnot
      | _ =>
        rw [parseUnary]
        · exact follows_fail
        all_goals nofun

theorem followsWith_unary (hprimary : primary.FollowsWith fuel) (hunary : unary.FollowsWith fuel) :
    unary.FollowsWith (fuel + 1) := by
  intro s levels hs hfuel
  rw [call, parse]
  obtain ⟨offset, hrest, heat⟩ | ⟨hne, heat⟩ := eat_cases .not s
  · rw [hrest, List.length_cons] at hfuel
    rw [hrest]
    refine heat.follows (follows_descend hunary hs (by omega) ?_ ?_ ?_)
    · rintro rfl
      rw [parseUnary]
    · rintro n error rfl herror
      rw [parse] at herror
      rw [parseUnary, herror]
      rfl
    · rintro n inner s' rfl hok hdepth
      rw [parse] at hok
      rw [parseUnary, hok]
      exact (reads_ascend hdepth (Nat.le.intro hs)).follows (follows_pure _ _)
  · rw [← parsePrimary_of_ne hne]
    exact heat.follows (hprimary s levels hs (Nat.le_of_succ_le_succ hfuel))

/-- Whatever the fuel suffices for, the procedures do what their functions do. -/
theorem followsWith (fuel : Nat) :
    (∀ p : Procedure, p.FollowsWith fuel) ∧ ∀ c : Connective, LinksFollowWith fuel c := by
  -- By induction on the fuel: every call inside another one gets one less.
  induction fuel with
  | zero =>
    refine ⟨fun p s levels _ hfuel => ?_, fun c s levels base left _ _ hfuel => ?_⟩
    · rcases p with (- | -) | - | - <;> exact absurd hfuel (Nat.not_succ_le_zero _)
    · exact absurd hfuel (Nat.not_succ_le_zero _)
  | succ fuel ih =>
    obtain ⟨hcall, hlinks⟩ := ih
    refine ⟨fun p => ?_, fun c => linksFollowWith_succ (hcall _) (hlinks c)⟩
    cases p with
    | chain c => exact followsWith_chain (hcall _) (hlinks c)
    | unary => exact followsWith_unary (hcall _) (hcall _)
    | primary => exact followsWith_primary (hcall _)

end Procedure

/-! ## More fuel -/

namespace Counting

/-- The second computation gives every result of the first. -/
def Extends (m m' : Counting α) : Prop :=
  ∀ s result, m.run s = some result → m'.run s = some result

theorem Extends.refl (m : Counting α) : m.Extends m :=
  fun _ _ => id

theorem Extends.trans {m m' m'' : Counting α} (h : m.Extends m') (h' : m'.Extends m'') :
    m.Extends m'' :=
  fun s result hrun => h' s result (h s result hrun)

theorem exhausted_extends (m : Counting α) : exhausted.Extends m :=
  nofun

theorem Extends.bind {m m' : Counting α} {f f' : α → Counting β} (hm : m.Extends m')
    (hf : ∀ a, (f a).Extends (f' a)) : (m >>= f).Extends (m' >>= f') := by
  intro s result hrun
  cases hfirst : m.run s with
  | none =>
    rw [run_bind, hfirst] at hrun
    cases hrun
  | some p =>
    obtain ⟨outcome, s'⟩ := p
    have hfirst' := hm s _ hfirst
    cases outcome with
    | error failure =>
      rw [run_bind_error hfirst] at hrun
      rw [run_bind_error hfirst', hrun]
    | ok a =>
      rw [run_bind_ok hfirst] at hrun
      rw [run_bind_ok hfirst']
      exact hf a s' result hrun

theorem Extends.ite {p : Prop} [Decidable p] {m m' n n' : Counting α} (hm : m.Extends m')
    (hn : n.Extends n') : (if p then m else n).Extends (if p then m' else n') := by
  split
  · exact hm
  · exact hn

end Counting

namespace Procedure

open Counting

/-- One more of fuel changes no result. -/
theorem call_extends_succ (fuel : Nat) :
    (∀ p : Procedure, (p.call fuel).Extends (p.call (fuel + 1))) ∧
      ∀ c base left, (links c base left fuel).Extends (links c base left (fuel + 1)) := by
  induction fuel with
  | zero =>
    refine ⟨fun p => ?_, fun c base left => exhausted_extends _⟩
    rw [call]
    exact exhausted_extends _
  | succ fuel ih =>
    obtain ⟨hcall, hlinks⟩ := ih
    refine ⟨fun p => ?_, fun c base left => ?_⟩
    · cases p with
      | chain c =>
        rw [call, call]
        exact (Extends.refl _).bind fun base => (hcall _).bind fun left => hlinks c base left
      | unary =>
        rw [call, call]
        refine (Extends.refl _).bind fun found => Extends.ite ?_ (hcall _)
        exact (Extends.refl _).bind fun _ => (hcall _).bind fun _ => Extends.refl _
      | primary =>
        rw [call, call]
        refine (Extends.refl _).bind fun token => ?_
        cases token.kind with
        | openParen =>
          exact (Extends.refl _).bind fun _ => (hcall _).bind fun _ => Extends.refl _
        | _ => exact Extends.refl _
    · rw [links, links]
      refine (Extends.refl _).bind fun found => Extends.ite ?_ (Extends.refl _)
      exact (Extends.refl _).bind fun _ => (hcall _).bind fun right => hlinks c base _

theorem call_extends (p : Procedure) {fuel fuel' : Nat} (h : fuel ≤ fuel') :
    (p.call fuel).Extends (p.call fuel') := by
  induction fuel', h using Nat.le_induction with
  | base => exact Extends.refl _
  | succ fuel' _ ih => exact ih.trans ((call_extends_succ fuel').1 p)

end Procedure

/-! ## Calls -/

/-- With enough fuel, the parser with a counter comes to an end, and agrees with the other one. -/
theorem Counting.run_whole {tokens : List Token} {fuel : Nat} (h : tokens ≠ [])
    (hfuel : 4 * tokens.length + 4 ≤ fuel) :
    ∃ s', (whole fuel).run (.start tokens) = some ((parseTokens tokens).mapError .parse, s') := by
  have hchain : ((Procedure.chain .or).call fuel).Follows (.start tokens) 0
      (parseOr depthLimit tokens) :=
    (Procedure.followsWith fuel).1 (.chain .or) (.start tokens) depthLimit (Nat.zero_add _) hfuel
  have hwhole : (whole fuel).Follows (.start tokens) 0 ((parseTokens tokens).map (·, [])) := by
    rw [parseTokens, List.isEmpty_eq_false_iff.mpr h]
    refine hchain.bind (fun error herror => ?_) fun e s' hok hdepth => ?_
    · rw [herror]
      rfl
    · rw [hok, ← hdepth]
      refine (reads_peek s').follows ?_
      cases hrest : s'.rest with
      | nil =>
        have hend := follows_pure e s'
        rwa [hrest] at hend
      | cons token rest => exact follows_fail
  obtain ⟨s', hrun, -⟩ := hwhole.exists_run
  refine ⟨s', ?_⟩
  rw [hrun]
  cases parseTokens tokens <;> rfl

/-- Every call comes to an end, with fuel for four calls for each token that remains and four more,
and does what the parser does with the levels that the counter leaves. It never takes one off a
counter at zero, and nowhere is the counter above 129. A call that succeeds leaves the counter as it
found it. It reads some tokens, all of which are there, and other tokens behind the first one that
it does not read would change nothing. -/
theorem Procedure.call_returns (p : Procedure) (s : Progress) (h : s.depth ≤ 128) :
    ∃ (outcome : Except Failure Expr) (s' : Progress) (depths : List Nat),
      (∀ fuel, 4 * s.rest.length + 4 ≤ fuel → (p.call fuel).run s = some (outcome, s')) ∧
        outcome ≠ .error .underflow ∧ s'.depths = depths ++ s.depths ∧ (∀ n ∈ depths, n ≤ 129) ∧
        (∀ e, outcome = .ok e →
          s'.depth = s.depth ∧ s.position < s'.position ∧ s'.position ≤ s.tokens.length ∧
            ∀ tokens, tokens.take (s'.position + 1) = s.tokens.take (s'.position + 1) →
              ∀ fuel, 4 * s.rest.length + 4 ≤ fuel →
                (p.call fuel).run { s with tokens } = some (.ok e, { s' with tokens })) ∧
        outcome.map (·, s'.rest) = (p.parse (128 - s.depth) s.rest).mapError .parse := by
  have hrank := p.rank_le
  have hfollows := (followsWith (4 * s.rest.length + 4)).1 p s (128 - s.depth)
    (Nat.add_sub_of_le h) (by omega)
  cases hparse : p.parse (128 - s.depth) s.rest with
  | error error =>
    rw [hparse] at hfollows
    obtain ⟨s', hrun, depths, hdepths, hle⟩ := hfollows
    exact ⟨.error (.parse error), s', depths, fun fuel hfuel => p.call_extends hfuel _ _ hrun,
      nofun, hdepths, hle, nofun, rfl⟩
  | ok result =>
    obtain ⟨e, tokens⟩ := result
    rw [hparse] at hfollows
    obtain ⟨s', hreads, hdepth, rfl⟩ := hfollows
    obtain ⟨depths, hdepths, hle⟩ := hreads.countsTo
    refine ⟨.ok e, s', depths, fun fuel hfuel => p.call_extends hfuel _ _ hreads.run, nofun,
      hdepths, hle, ?_, rfl⟩
    rintro e' ⟨⟩
    have hlength := length_lt_of_parse hparse
    rw [Progress.rest, Progress.rest, hreads.tokens_eq, List.length_drop, List.length_drop]
      at hlength
    refine ⟨hdepth, by omega, hreads.le_length (by omega), fun tokens htokens fuel hfuel => ?_⟩
    exact p.call_extends hfuel _ _ (hreads.run_eq tokens htokens)

/-- In `!(a && b) || c`, the negation takes the last three levels and gives them back. It ends
before `||`, whatever comes then. -/
theorem Procedure.call_returns_before_or :
    let tokens : List Token := [⟨.not, 0⟩, ⟨.openParen, 1⟩, ⟨.word "a", 2⟩, ⟨.and, 4⟩,
      ⟨.word "b", 7⟩, ⟨.closeParen, 8⟩, ⟨.or, 10⟩]
    let e : Expr := .not (.and (.key "a") (.key "b"))
    let depths : List Nat := [125, 126, 127, 127, 128, 127, 126]
    (∀ fuel, 36 ≤ fuel → (unary.call fuel).run ⟨tokens ++ [⟨.word "c", 13⟩], 0, 125, []⟩ =
        some (.ok e, ⟨tokens ++ [⟨.word "c", 13⟩], 6, 125, depths⟩)) ∧
      (∀ n ∈ depths, n ≤ 129) ∧
      ∀ rest fuel, 36 ≤ fuel → (unary.call fuel).run ⟨tokens ++ rest, 0, 125, []⟩ =
        some (.ok e, ⟨tokens ++ rest, 6, 125, depths⟩) := by
  intro tokens e depths
  let s : Progress := ⟨tokens ++ [⟨.word "c", 13⟩], 0, 125, []⟩
  obtain ⟨outcome, s', depths', hrun, -, hdepths, hle, hok, -⟩ := call_returns unary s (by decide)
  have hresult : (unary.call 36).run s =
      some (.ok e, ⟨tokens ++ [⟨.word "c", 13⟩], 6, 125, depths⟩) := rfl
  obtain ⟨rfl, rfl⟩ := Prod.mk.inj (Option.some.inj ((hrun 36 (Nat.le_refl 36)).symm.trans hresult))
  obtain ⟨-, -, -, hlocal⟩ := hok e rfl
  refine ⟨hrun, ?_, fun rest fuel hfuel => hlocal (tokens ++ rest) rfl fuel hfuel⟩
  rwa [← List.append_nil depths', ← hdepths] at hle

end KeyChord.When
