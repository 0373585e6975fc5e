import KeyChord.Proofs.Steps
import KeyChord.Yaml.Node

/-!
# The size of a document

A document counts the scalars, aliases, and starts and ends of collections in it as they are read,
so that the count bounds what later goes through the document. At the top of a document there is no
alias, since no anchor has been named by then.

The module introduces:

* `Node.width`: the number of pairs of a mapping, and one for the node itself.
* `node.IsOwn`: the node is no alias.
* `Ensures pre x post`: what holds after a reader, if it succeeds.
* `Grows x count`: a reader adds to the size what counts of its result.

The readers of nodes call one another, and `AllGrow` says of all of them how they grow. The main
statement is `Document.top_of_ofTokens`.
-/

namespace KeyChord.Yaml

/-- The number of pairs of a mapping, and one for the node itself. -/
def Node.width : Node → Nat
  | .mapping _ pairs => pairs.length + 1
  | _ => 1

theorem Node.width_pos (node : Node) : 1 ≤ node.width := by
  cases node with
  | mapping tag pairs => exact Nat.le_add_left 1 pairs.length
  | _ => exact Nat.le_refl 1

/-- The node is no alias. -/
def Node.IsOwn (node : Node) : Prop :=
  ∀ slot, node ≠ .reference slot

namespace Build

variable {α β : Type} {n m : α → Nat} {x y : Build α} {pre : Builder → Prop}
  {post : α → Builder → Prop}

/-- What holds afterwards, also of the result, if the reader succeeds and something held before. -/
def Ensures (pre : Builder → Prop) (x : Build α) (post : α → Builder → Prop) : Prop :=
  ∀ b a b', pre b → x.run b = .ok (a, b') → post a b'

theorem Ensures.bind {f : α → Build β} {post' : β → Builder → Prop} (hx : Ensures pre x post)
    (hf : ∀ a, Ensures (post a) (f a) post') : Ensures pre (x >>= f) post' := by
  intro b c b'' hpre h
  rw [StateT.run_bind] at h
  cases hrun : x.run b with
  | error error => rw [hrun] at h; cases h
  | ok result =>
    obtain ⟨a, b'⟩ := result
    rw [hrun] at h
    exact hf a b' c b'' (hx b a b' hpre hrun) h

theorem Ensures.ite {p : Prop} [Decidable p] (hx : Ensures pre x post) (hy : Ensures pre y post) :
    Ensures pre (if p then x else y) post := by
  split
  · exact hx
  · exact hy

theorem Ensures.mono {post' : α → Builder → Prop} (hx : Ensures pre x post)
    (h : ∀ a b, post a b → post' a b) : Ensures pre x post' :=
  fun b a b' hpre hrun => h a b' (hx b a b' hpre hrun)

theorem ensures_pure {a : α} (h : ∀ b, pre b → post a b) : Ensures pre (pure a) post := by
  rintro b _ b' hpre ⟨⟩
  exact h b hpre

theorem ensures_throw {error : Error} : Ensures pre (throw error) post := by
  rintro b a b' hpre ⟨⟩

/-! ## Growth -/

/-- A reader adds to the size at least what counts of its result. -/
def Grows (x : Build α) (count : α → Nat) : Prop :=
  ∀ start, Ensures (fun b => start ≤ b.size) x fun a b => start + count a ≤ b.size

theorem Grows.bind {f : α → Build β} {m : β → Nat} (hx : Grows x n)
    (hf : ∀ a, Grows (f a) fun c => m c - n a) : Grows (x >>= f) m := by
  intro start
  refine (hx start).bind fun a => (hf a (start + n a)).mono fun c b hsize => ?_
  have hsum : start + n a + (m c - n a) ≤ b.size := hsize
  omega

theorem Grows.mono (hx : Grows x n) (h : ∀ a, m a ≤ n a) : Grows x m := fun start =>
  (hx start).mono fun a _ hsize => Nat.le_trans (Nat.add_le_add_left (h a) start) hsize

/-- What a reader adds to the size need not be counted. -/
theorem Grows.skip {f : α → Build β} {m : β → Nat} (hx : Grows x n) (hf : ∀ a, Grows (f a) m) :
    Grows (x >>= f) m :=
  (hx.mono (m := fun _ => 0) fun _ => Nat.zero_le _).bind hf

theorem Grows.ite {p : Prop} [Decidable p] (hx : Grows x n) (hy : Grows y n) :
    Grows (if p then x else y) n := fun start =>
  (hx start).ite (hy start)

theorem grows_pure {a : α} (h : n a = 0) : Grows (pure a) n := fun start =>
  ensures_pure fun _ hsize => by rwa [h]

theorem grows_throw {error : Error} : Grows (throw error) n := fun _ =>
  ensures_throw

theorem grows_throw_bind {error : Error} {f : α → Build β} {m : β → Nat} :
    Grows (throw error >>= f) m := by
  rintro start b a b' hsize ⟨⟩

/-- What leaves the size as it is. -/
theorem grows_of_size_eq (h : ∀ b a b', x.run b = .ok (a, b') → b'.size = b.size) :
    Grows x fun _ => 0 := by
  intro start b a b' hsize hrun
  rwa [Nat.add_zero, h b a b' hrun]

theorem grows_peek : Grows peek fun _ => 0 :=
  grows_of_size_eq (by rintro b a b' ⟨⟩; rfl)

theorem grows_get : Grows get fun _ => 0 :=
  grows_of_size_eq (by rintro b a b' ⟨⟩; rfl)

theorem grows_advance : Grows advance fun _ => 0 :=
  grows_of_size_eq (by rintro b a b' ⟨⟩; rfl)

theorem grows_takeSlot (name : String) : Grows (takeSlot name) fun _ => 0 :=
  grows_of_size_eq (by rintro b a b' ⟨⟩; rfl)

theorem grows_hold (number : Nat) (node : Node) : Grows (hold number node) fun _ => 0 :=
  grows_of_size_eq (by rintro b a b' ⟨⟩; rfl)

theorem grows_grow (count : Nat) : Grows (grow count) fun _ => count := by
  rintro start b a b' hsize ⟨⟩
  exact Nat.add_le_add_right hsize count

theorem grows_accept (token : Token) : Grows (accept token) fun _ => 0 := by
  rw [accept]
  refine grows_peek.skip fun next => Grows.ite ?_ (grows_pure rfl)
  exact grows_advance.skip fun _ => grows_pure rfl

theorem grows_emptyNode (tag : Option TagBytes) : Grows (emptyNode tag) Node.width := by
  rw [emptyNode]
  exact (grows_grow 1).bind fun _ => grows_pure rfl

theorem grows_unlessNext (tokens : List Token) {x : Build Node} (hx : Grows x Node.width) :
    Grows (unlessNext tokens x) Node.width := by
  rw [unlessNext]
  exact grows_peek.skip fun _ => Grows.ite (grows_emptyNode none) hx

theorem grows_aliasOf (name : String) : Grows (aliasOf name) Node.width := by
  rw [aliasOf]
  refine (grows_grow 1).bind fun _ => grows_get.skip fun b => ?_
  split
  · exact grows_pure rfl
  · exact grows_throw

theorem grows_anchor? : Grows anchor? fun _ => 0 := by
  rw [anchor?]
  refine grows_peek.skip fun next => ?_
  split
  · exact grows_advance.skip fun _ => grows_pure rfl
  · exact grows_pure rfl

theorem grows_tag? : Grows tag? fun _ => 0 := by
  rw [tag?]
  refine grows_peek.skip fun next => ?_
  split
  · exact grows_advance.skip fun _ => grows_pure rfl
  · exact grows_pure rfl

theorem grows_expandTag (name : TagName) : Grows (expandTag name) fun _ => 0 := by
  rw [expandTag]
  refine Grows.ite (grows_pure rfl) (grows_get.skip fun b => ?_)
  split
  · exact grows_pure rfl
  · exact grows_throw

theorem grows_properties : Grows properties fun _ => 0 := by
  rw [properties]
  refine grows_anchor?.skip fun anchor => grows_tag?.skip fun tag => ?_
  dsimp only
  -- The tag is expanded after the anchor, wherever that stands.
  cases tag with
  | some name =>
    have htag : ∀ anchor : Option String,
        Grows (do return (anchor, some (← expandTag name))) fun _ => 0 :=
      fun _ => (grows_expandTag name).skip fun _ => grows_pure rfl
    exact Grows.ite (Grows.skip (n := fun _ => 0) (grows_pure rfl) htag) (grows_anchor?.skip htag)
  | none =>
    exact Grows.ite (Grows.skip (n := fun _ => 0) (grows_pure rfl) fun _ => grows_pure rfl)
      (grows_anchor?.skip fun _ => grows_pure rfl)

/-- How much the size grows with what is read in a number of steps. -/
structure AllGrow (fuel : Nat) : Prop where
  node : ∀ inBlock inMapping, Grows (Build.node fuel inBlock inMapping) Node.width
  content : ∀ inBlock inMapping marked tag,
    Grows (Build.content fuel inBlock inMapping marked tag) Node.width
  blockItems : Grows (Build.blockItems fuel) fun _ => 0
  unindentedItems : Grows (Build.unindentedItems fuel) fun _ => 0
  blockPairs : Grows (Build.blockPairs fuel) List.length
  flowItems : ∀ first, Grows (Build.flowItems fuel first) fun _ => 0
  flowPair : Grows (Build.flowPair fuel) Node.width
  flowPairs : ∀ first, Grows (Build.flowPairs fuel first) List.length

theorem allGrow_zero : AllGrow 0 := by
  constructor
  all_goals
    intros
    first
    | rw [Build.node]
    | rw [Build.content]
    | rw [Build.blockItems]
    | rw [Build.unindentedItems]
    | rw [Build.blockPairs]
    | rw [Build.flowItems]
    | rw [Build.flowPair]
    | rw [Build.flowPairs]
    exact grows_throw

theorem AllGrow.node_succ {fuel : Nat} (h : AllGrow fuel) (inBlock inMapping : Bool) :
    Grows (Build.node (fuel + 1) inBlock inMapping) Node.width := by
  rw [Build.node]
  refine grows_peek.skip fun next => ?_
  split
  · exact grows_advance.skip fun _ => grows_aliasOf _
  · refine grows_properties.skip fun (anchor, tag) => ?_
    have hslot : Grows (anchor.mapM takeSlot) fun _ => 0 := by
      cases anchor with
      | none => exact grows_pure rfl
      | some name =>
        rw [Option.mapM_some, ← bind_pure_comp]
        exact (grows_takeSlot name).skip fun _ => grows_pure rfl
    refine hslot.skip fun number => (h.content _ _ _ _).bind fun found => ?_
    split
    · exact (grows_hold _ _).skip fun _ => grows_pure (Nat.sub_self _)
    · exact grows_pure (Nat.sub_self _)

/-- The pairs of a mapping count for themselves, apart from its start and its end. -/
theorem grows_mapping {pairs : Build (List (Node × Node))} (hpairs : Grows pairs List.length)
    (tag : Option TagBytes) :
    Grows (do return Node.mapping tag (← pairs)) fun found => found.width - 2 := by
  refine hpairs.bind fun found => grows_pure ?_
  show found.length + 1 - 2 - found.length = 0
  omega

theorem AllGrow.content_succ {fuel : Nat} (h : AllGrow fuel) (inBlock inMapping marked : Bool)
    (tag : Option TagBytes) :
    Grows (Build.content (fuel + 1) inBlock inMapping marked tag) Node.width := by
  rw [Build.content]
  refine grows_peek.skip fun next => ?_
  split
  · exact (grows_grow 2).bind fun _ => h.unindentedItems.skip fun _ => grows_pure rfl
  · exact grows_advance.skip fun _ => (grows_grow 1).bind fun _ => grows_pure rfl
  · exact grows_advance.skip fun _ => (grows_grow 2).bind fun _ =>
      (h.flowItems true).skip fun _ => grows_pure rfl
  · exact grows_advance.skip fun _ => (grows_grow 2).bind fun _ =>
      grows_mapping (h.flowPairs true) tag
  · exact grows_advance.skip fun _ => (grows_grow 2).bind fun _ =>
      h.blockItems.skip fun _ => grows_pure rfl
  · exact grows_advance.skip fun _ => (grows_grow 2).bind fun _ => grows_mapping h.blockPairs tag
  · split
    · exact grows_emptyNode tag
    · exact grows_throw

/-- The pairs that follow one count for themselves. -/
theorem grows_cons_pair {pairs : Build (List (Node × Node))} (hpairs : Grows pairs List.length)
    (pair : Node × Node) : Grows (do return pair :: (← pairs)) fun found => found.length - 1 := by
  refine hpairs.bind fun rest => grows_pure ?_
  rw [List.length_cons, Nat.add_sub_cancel, Nat.sub_self]

theorem AllGrow.blockItems_succ {fuel : Nat} (h : AllGrow fuel) :
    Grows (Build.blockItems (fuel + 1)) fun _ => 0 := by
  rw [Build.blockItems]
  refine (grows_accept .blockEnd).skip fun ended => Grows.ite (grows_pure rfl) ?_
  refine (grows_accept .entry).skip fun hasEntry => ?_
  dsimp only
  refine Grows.ite grows_throw_bind ((grows_unlessNext _ (h.node true false)).skip fun item => ?_)
  exact h.blockItems.skip fun items => grows_pure rfl

theorem AllGrow.unindentedItems_succ {fuel : Nat} (h : AllGrow fuel) :
    Grows (Build.unindentedItems (fuel + 1)) fun _ => 0 := by
  rw [Build.unindentedItems]
  refine (grows_accept .entry).skip fun hasEntry => Grows.ite (grows_pure rfl) ?_
  refine (grows_unlessNext _ (h.node true false)).skip fun item => ?_
  exact h.unindentedItems.skip fun items => grows_pure rfl

theorem AllGrow.blockPairs_succ {fuel : Nat} (h : AllGrow fuel) :
    Grows (Build.blockPairs (fuel + 1)) List.length := by
  rw [Build.blockPairs]
  refine (grows_accept .blockEnd).skip fun ended => Grows.ite (grows_pure rfl) ?_
  refine (grows_accept .key).skip fun hasKey => ?_
  dsimp only
  have hnode := grows_unlessNext [.key, .value, .blockEnd] (h.node true true)
  refine Grows.ite grows_throw_bind ((hnode.mono Node.width_pos).bind fun key => ?_)
  have hrest : ∀ value, Grows _ _ := fun value => grows_cons_pair h.blockPairs (key, value)
  refine (grows_accept .value).skip fun hasValue => ?_
  exact Grows.ite (hnode.skip hrest) ((grows_emptyNode none).skip hrest)

theorem AllGrow.flowItems_succ {fuel : Nat} (h : AllGrow fuel) (first : Bool) :
    Grows (Build.flowItems (fuel + 1) first) fun _ => 0 := by
  rw [Build.flowItems]
  refine (grows_accept .flowSequenceEnd).skip fun ended => Grows.ite (grows_pure rfl) ?_
  refine (grows_accept .comma).skip fun hasComma => ?_
  dsimp only
  refine Grows.ite grows_throw_bind ?_
  refine (grows_accept .flowSequenceEnd).skip fun ended => Grows.ite (grows_pure rfl) ?_
  have hrest : ∀ item : Node, Grows (do return item :: (← Build.flowItems fuel false)) fun _ => 0 :=
    fun item => (h.flowItems false).skip fun items => grows_pure rfl
  refine (grows_accept .key).skip fun hasKey => ?_
  exact Grows.ite (h.flowPair.skip hrest) ((h.node false false).skip hrest)

theorem AllGrow.flowPair_succ {fuel : Nat} (h : AllGrow fuel) :
    Grows (Build.flowPair (fuel + 1)) Node.width := by
  rw [Build.flowPair]
  refine (grows_grow 2).bind fun _ => grows_peek.skip fun next => ?_
  dsimp only
  have hvalue : ∀ key, Grows (α := Node) (do
      let value ←
        if ← accept .value then
          unlessNext [.comma, .flowSequenceEnd] (Build.node fuel false false)
        else emptyNode none
      return .mapping none [(key, value)]) fun found => found.width - 2 := by
    intro key
    refine (grows_accept .value).skip fun hasValue => ?_
    refine Grows.ite ?_ ?_
    · exact (grows_unlessNext _ (h.node false false)).skip fun value => grows_pure rfl
    · exact (grows_emptyNode none).skip fun value => grows_pure rfl
  refine Grows.ite ?_ ((h.node false false).skip hvalue)
  exact grows_advance.skip fun _ => (grows_emptyNode none).skip hvalue

theorem AllGrow.flowPairs_succ {fuel : Nat} (h : AllGrow fuel) (first : Bool) :
    Grows (Build.flowPairs (fuel + 1) first) List.length := by
  rw [Build.flowPairs]
  refine (grows_accept .flowMappingEnd).skip fun ended => Grows.ite (grows_pure rfl) ?_
  refine (grows_accept .comma).skip fun hasComma => ?_
  dsimp only
  refine Grows.ite grows_throw_bind ?_
  refine (grows_accept .flowMappingEnd).skip fun ended => Grows.ite (grows_pure rfl) ?_
  have hrest : ∀ key value, Grows _ _ := fun key value =>
    grows_cons_pair (h.flowPairs false) (key, value)
  refine (grows_accept .key).skip fun hasKey => Grows.ite ?_ ?_
  · refine ((grows_unlessNext _ (h.node false false)).mono Node.width_pos).bind fun key => ?_
    refine (grows_accept .value).skip fun hasValue => Grows.ite ?_ ?_
    · exact (grows_unlessNext _ (h.node false false)).skip (hrest key)
    · exact (grows_emptyNode none).skip (hrest key)
  · refine ((h.node false false).mono Node.width_pos).bind fun key => ?_
    exact (grows_emptyNode none).skip (hrest key)

/-- Every reader of nodes adds to the size what counts of its result. -/
theorem allGrow (fuel : Nat) : AllGrow fuel := by
  induction fuel with
  | zero => exact allGrow_zero
  | succ fuel ih =>
    exact {
      node := ih.node_succ
      content := ih.content_succ
      blockItems := ih.blockItems_succ
      unindentedItems := ih.unindentedItems_succ
      blockPairs := ih.blockPairs_succ
      flowItems := ih.flowItems_succ
      flowPair := ih.flowPair_succ
      flowPairs := ih.flowPairs_succ }

/-! ## The top of a document -/

/-- Directives give handles their meanings, and nothing else changes but what remains to be read. -/
theorem eq_of_run_directives {b b' : Builder} {found : List Directive}
    (h : directives.run b = .ok (found, b')) : b'.size = b.size ∧ b'.names = b.names := by
  simp only [directives, StateT.run_bind, StateT.run_get] at h
  simp only [bind, Except.bind, pure, Except.pure] at h
  split at h
  · cases h
  · cases h
    exact ⟨rfl, rfl⟩

theorem grows_directives : Grows directives fun _ => 0 :=
  grows_of_size_eq fun _ _ _ h => (eq_of_run_directives h).1

theorem grows_atDocumentEdge : Grows atDocumentEdge fun _ => 0 := by
  rw [atDocumentEdge]
  refine grows_peek.skip fun next => ?_
  split <;> exact grows_pure rfl

/-- The top of a document counts as a node, if there is one. -/
theorem grows_root (fuel : Nat) : Grows (root fuel) fun found => found.elim 0 Node.width := by
  have hnode : Grows (do return some (← node fuel true false)) fun found : Option Node =>
      found.elim 0 Node.width :=
    ((allGrow fuel).node true false).bind fun found => grows_pure (Nat.sub_self _)
  have hempty : Grows (do return some (← emptyNode none)) fun found : Option Node =>
      found.elim 0 Node.width :=
    (grows_emptyNode none).bind fun found => grows_pure (Nat.sub_self _)
  rw [root]
  refine grows_peek.skip fun next => Grows.ite (grows_pure rfl) ?_
  refine grows_directives.skip fun directives => ?_
  refine (grows_accept .documentStart).skip fun started => Grows.ite ?_ ?_
  · exact grows_atDocumentEdge.skip fun atEdge => Grows.ite hempty hnode
  · exact Grows.ite hnode grows_throw

/-! ## Aliases at the top -/

/-- Of a reader that only the next one follows, nothing need be known. -/
theorem Ensures.after {f : α → Build β} {post : β → Builder → Prop}
    (hf : ∀ a, Ensures (fun _ => True) (f a) post) : Ensures pre (x >>= f) post := by
  have hx : Ensures pre x fun _ _ => True := fun _ _ _ _ _ => trivial
  exact hx.bind hf

theorem ensures_pure_isOwn {node : Node} (h : node.IsOwn) :
    Ensures pre (pure node) fun found _ => found.IsOwn :=
  ensures_pure fun _ _ => h

theorem ensures_emptyNode_isOwn (tag : Option TagBytes) :
    Ensures pre (emptyNode tag) fun found _ => found.IsOwn := by
  rw [emptyNode]
  exact Ensures.after fun _ => ensures_pure_isOwn nofun

theorem ensures_content_isOwn (fuel : Nat) (inBlock inMapping marked : Bool)
    (tag : Option TagBytes) :
    Ensures pre (content fuel inBlock inMapping marked tag) fun found _ => found.IsOwn := by
  cases fuel with
  | zero =>
    rw [content]
    exact ensures_throw
  | succ fuel =>
    -- An entry stands before its sequence, a scalar for itself, and then come the collections.
    have hcollection : ∀ {γ : Type} {items : Build γ} {ofItems : γ → Node},
        (∀ found, (ofItems found).IsOwn) →
          Ensures (fun _ => True) (do advance; grow 2; return ofItems (← items))
            fun found _ => found.IsOwn :=
      fun hown => Ensures.after fun _ => Ensures.after fun _ => Ensures.after fun found =>
        ensures_pure_isOwn (hown found)
    rw [content]
    refine Ensures.after fun next => ?_
    split
    case h_1 => exact Ensures.after fun _ => Ensures.after fun _ => ensures_pure_isOwn nofun
    case h_2 => exact Ensures.after fun _ => Ensures.after fun _ => ensures_pure_isOwn nofun
    case h_7 => exact Ensures.ite (ensures_emptyNode_isOwn tag) ensures_throw
    all_goals exact hcollection fun _ => nofun

/-- No name stands for a slot yet. -/
def Unnamed (b : Builder) : Prop :=
  b.names = []

theorem ensures_peek_unnamed : Ensures Unnamed peek fun _ => Unnamed := by
  rintro b a b' hnames ⟨⟩
  exact hnames

theorem ensures_accept_unnamed (token : Token) :
    Ensures Unnamed (accept token) fun _ => Unnamed := by
  have hadvance : Ensures Unnamed advance fun _ => Unnamed := by
    rintro b a b' hnames ⟨⟩
    exact hnames
  rw [accept]
  refine ensures_peek_unnamed.bind fun next => Ensures.ite ?_ (ensures_pure fun _ h => h)
  exact hadvance.bind fun _ => ensures_pure fun _ h => h

theorem ensures_atDocumentEdge_unnamed : Ensures Unnamed atDocumentEdge fun _ => Unnamed := by
  rw [atDocumentEdge]
  refine ensures_peek_unnamed.bind fun next => ?_
  split <;> exact ensures_pure fun _ h => h

theorem ensures_node_isOwn (fuel : Nat) (inBlock inMapping : Bool) :
    Ensures Unnamed (node fuel inBlock inMapping) fun found _ => found.IsOwn := by
  cases fuel with
  | zero =>
    rw [node]
    exact ensures_throw
  | succ fuel =>
    rw [node]
    refine ensures_peek_unnamed.bind fun next => ?_
    split
    · -- An alias would need a name that an anchor has been given before it.
      rintro b found b' hnames h
      rw [Unnamed] at hnames
      simp only [advance, aliasOf, grow] at h
      simp [hnames] at h
      cases h
    · refine Ensures.after fun (anchor, tag) => Ensures.after fun number => ?_
      refine (ensures_content_isOwn _ _ _ _ _).bind fun found => ?_
      have hhold : ∀ number, Ensures (fun _ => found.IsOwn) (hold number found)
          fun _ _ => found.IsOwn :=
        fun _ _ _ _ hown _ => hown
      split
      · exact (hhold _).bind fun _ => ensures_pure fun _ hown => hown
      · exact ensures_pure fun _ hown => hown

/-- The top of a document is no alias. -/
theorem ensures_root_isOwn (fuel : Nat) :
    Ensures Unnamed (root fuel) fun found _ => ∀ node ∈ found, node.IsOwn := by
  have hdirectives : Ensures Unnamed directives fun _ => Unnamed := by
    intro b found b' hnames h
    rw [Unnamed, (eq_of_run_directives h).2]
    exact hnames
  have hsome : ∀ {x : Build Node}, Ensures Unnamed x (fun found _ => found.IsOwn) →
      Ensures Unnamed (do return some (← x)) fun found _ => ∀ node ∈ found, node.IsOwn := by
    intro x hx
    refine hx.bind fun found => ensures_pure fun _ hown node hnode => ?_
    rwa [← Option.some.inj hnode]
  have hnode := hsome (ensures_node_isOwn fuel true false)
  rw [root]
  refine ensures_peek_unnamed.bind fun next => Ensures.ite (ensures_pure nofun) ?_
  refine hdirectives.bind fun directives => ?_
  refine (ensures_accept_unnamed .documentStart).bind fun started => Ensures.ite ?_ ?_
  · exact ensures_atDocumentEdge_unnamed.bind fun atEdge =>
      Ensures.ite (hsome (ensures_emptyNode_isOwn none)) hnode
  · exact Ensures.ite hnode ensures_throw

end Build

/-- The node at the top of a document, for which nothing stands if the document is void. -/
def Document.top (d : Document) : Node :=
  d.root.getD (.scalar none .plain "")

/-- The node at the top of a document is no alias, and no larger than the whole. -/
theorem Document.top_of_ofTokens {tokens : List Token} {d : Document}
    (h : Document.ofTokens tokens = .ok d) : d.top.IsOwn ∧ d.top.width ≤ d.size := by
  obtain ⟨⟨root, b⟩, hrun, hrest⟩ := bind_eq_ok_iff.mp h
  simp only at hrest
  split at hrest
  case isFalse => cases hrest
  obtain rfl := Except.ok.inj hrest
  cases root with
  | none => exact ⟨nofun, Nat.le_max_left 1 b.size⟩
  | some top =>
    have hgrows : 0 + top.width ≤ b.size :=
      Build.grows_root _ 0 { tokens } _ b (Nat.le_refl 0) hrun
    have hown := Build.ensures_root_isOwn _ { tokens } _ b rfl hrun
    rw [Nat.zero_add] at hgrows
    exact ⟨hown top rfl, Nat.le_trans hgrows (Nat.le_max_right 1 b.size)⟩

end KeyChord.Yaml
