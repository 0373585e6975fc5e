import KeyChord.Proofs.Yaml.Size
import KeyChord.Yaml.Decode

/-!
# What a document means

A reading goes through a document and counts the aliases that it follows. What it gives depends on
the document alone, as long as it does not run out of aliases, and a document is large enough for
its fields to be read.

The module introduces:

* `Document.target?`, `text?`, `literal?`, `word?`, `entries?`, `fields?`: the values of nodes,
  without counting.
* `Evaluates d reading n value`: the reading gives the value, for which `n` aliases are enough.
* `FieldIs entries name value? given`: what the entries of a mapping say under a name.

The main statements are `decode_eq_ok_iff` for texts and `elim_lookup_eq_some_iff` for fields.
`Node.uint64?_toString` says that numbers survive being written and read.
-/

namespace KeyChord.Yaml

/-! ## Values of nodes -/

namespace Document

/-- The node that another one stands for. -/
def target? (d : Document) : Node → Option Node
  | .reference slot => d.anchored.lookup slot
  | node => some node

/-- The text of a scalar. -/
def text? (d : Document) (node : Node) : Option String := do
  match ← d.target? node with
  | .scalar _ _ text => some text
  | _ => none

/-- The value that the text of a scalar writes, if neither quotes nor another tag make it a text. -/
def literal? {α : Type} (d : Document) (tag : TagBytes) (value? : String → Option α) (node : Node) :
    Option α := do
  match ← d.target? node with
  | .scalar found style text =>
    if style = .plain ∨ style = .literal ∧ found = some tag then value? text else none
  | _ => none

/-- The word that is the text of a scalar or, if that writes nothing, its local tag. -/
def word? (d : Document) (node : Node) : Option String := do
  match ← d.target? node with
  | .scalar tag style text =>
    match Node.localName? tag with
    | some name =>
      if style = .plain ∧ (text = "" ∨ Node.isNull text = true) then some name else none
    | none => some text
  | _ => none

/-- The values of a mapping by the texts of their keys. Nothing written is an empty mapping. -/
def entries? (d : Document) : Node → Option (List (String × Node))
  | .mapping _ pairs => pairs.mapM fun (key, value) => do return (← d.text? key, value)
  | node => if node.isBlank then some [] else none

/-- The values of a mapping under the known keys, none of which may be there twice. -/
def fields? (d : Document) (known : List String) (node : Node) : Option (List (String × Node)) := do
  let found := (← d.entries? node).filter (known.contains ·.1)
  if known.all fun name => (found.map (·.1)).count name ≤ 1 then some found else none

end Document

/-! ## Readings -/

/-- Whatever the reading gives is the value, and it gives the value if so many more n may be
followed. -/
structure Evaluates {α : Type} (d : Document) (reading : Reading α) (n : Nat) (value : Option α) :
    Prop where
  sound : ∀ left a left', (reading.run d).run left = .ok (a, left') → value = some a
  complete : ∀ a left, value = some a →
    ∃ left', (reading.run d).run (left + n) = .ok (a, left') ∧ left ≤ left'

section Readings

variable {α β : Type} {d : Document} {reading : Reading α} {f : α → Reading β} {n m : Nat}
  {value : Option α} {next : α → Option β} {node : Node} {name : String}

namespace Evaluates

theorem mono (h : Evaluates d reading n value) (hle : n ≤ m) :
    Evaluates d reading m value where
  sound := h.sound
  complete a left ha := by
    obtain ⟨left', hrun, hleft⟩ := h.complete a (left + (m - n)) ha
    have hsum : left + (m - n) + n = left + m := by
      omega
    rw [hsum] at hrun
    exact ⟨left', hrun, by omega⟩

theorem bind (h : Evaluates d reading n value)
    (hnext : ∀ a, Evaluates d (f a) m (next a)) :
    Evaluates d (reading >>= f) (n + m) (value.bind next) where
  sound left b left'' hrun := by
    rw [ReaderT.run_bind, StateT.run_bind, bind_eq_ok_iff] at hrun
    obtain ⟨⟨a, left'⟩, ha, hb⟩ := hrun
    rw [h.sound left a left' ha]
    exact (hnext a).sound left' b left'' hb
  complete b left hb := by
    obtain ⟨a, ha, hb⟩ := Option.bind_eq_some_iff.mp hb
    -- The first reading leaves the aliases that the second one may need.
    obtain ⟨left', hrun, hleft⟩ := h.complete a (left + m) ha
    obtain ⟨left'', hrun', hleft'⟩ := (hnext a).complete b (left' - m) hb
    rw [Nat.sub_add_cancel (by omega)] at hrun'
    refine ⟨left'', ?_, by omega⟩
    rw [ReaderT.run_bind, StateT.run_bind, bind_eq_ok_iff, Nat.add_comm n, ← Nat.add_assoc]
    exact ⟨(a, left'), hrun, hrun'⟩

theorem pure (a : α) : Evaluates d (pure a) 0 (some a) where
  sound := by
    rintro left b left' ⟨⟩
    rfl
  complete := by
    rintro b left ⟨⟩
    exact ⟨left, rfl, Nat.le_refl left⟩

theorem throw (error : Error) : Evaluates (α := α) d (throw error) 0 none where
  sound := by
    rintro left b left' ⟨⟩
  complete := by
    rintro b left ⟨⟩

theorem ofOption {error : Error} :
    Evaluates d (match value with
      | some a => return a
      | none => MonadExcept.throw error) 0 value := by
  cases value with
  | none => exact throw error
  | some a => exact pure a

theorem follow (node : Node) : Evaluates d node.follow 1 (d.target? node) := by
  cases node with
  | reference slot =>
    have hget : ∀ left : Nat,
        (ReaderT.run (get : Reading Nat) d).run left = Pure.pure (left, left) :=
      fun _ => rfl
    have hread : ∀ left : Nat,
        (ReaderT.run (read : Reading Document) d).run left = Pure.pure (d, left) :=
      fun _ => rfl
    -- An alias is followed if one more may be, and if its slot is held.
    have hheld : ∀ left found, d.anchored.lookup slot = some found →
        ((Node.reference slot).follow.run d).run (left + 1) = .ok (found, left) := by
      intro left found hfound
      simp only [Node.follow, ReaderT.run_bind, StateT.run_bind, hget, hread, pure_bind, hfound]
      rfl
    constructor
    · intro left found left' h
      cases left with
      | zero =>
        simp only [Node.follow, ReaderT.run_bind, StateT.run_bind, hget, hread, pure_bind] at h
        cases h
      | succ left =>
        cases hlookup : d.anchored.lookup slot with
        | none =>
          simp only [Node.follow, ReaderT.run_bind, StateT.run_bind, hget, hread, pure_bind,
            hlookup] at h
          cases h
        | some found' =>
          rw [hheld left found' hlookup] at h
          cases h
          exact hlookup
    · intro found left hfound
      exact ⟨left, hheld left found hfound, Nat.le_refl left⟩
  | _ => exact (pure _).mono (Nat.zero_le 1)

theorem mapM (hnext : ∀ a, Evaluates d (f a) 1 (next a)) (l : List α) :
    Evaluates d (l.mapM f) l.length (l.mapM next) := by
  induction l with
  | nil => exact pure []
  | cons a l ih =>
    rw [List.mapM_cons, List.mapM_cons, List.length_cons, Nat.add_comm]
    exact (hnext a).bind fun b => ih.bind fun rest => pure (b :: rest)

theorem text (node : Node) : Evaluates d node.text 1 (d.text? node) := by
  refine (follow node).bind (m := 0) fun found => ?_
  cases found with
  | scalar tag style text => exact pure text
  | _ => exact throw _

theorem literal {wanted : String} {tag : TagBytes} {value? : String → Option α} (node : Node) :
    Evaluates d (node.literal wanted tag value?) 1 (d.literal? tag value? node) := by
  refine (follow node).bind (m := 0) fun found => ?_
  cases found with
  | scalar found style text =>
    by_cases h : style = .plain ∨ style = .literal ∧ found = some tag
    · have hcounts : (style == .plain || (style == .literal && found == some tag)) = true := by
        simpa using h
      simp only [hcounts, if_pos h]
      exact ofOption
    · have hcounts : (style == .plain || (style == .literal && found == some tag)) = false := by
        simpa using h
      simp only [hcounts, if_neg h]
      exact throw _
  | _ => exact throw _

theorem word {wanted : String} {ofWord? : String → Option α} (node : Node) :
    Evaluates d (node.word wanted ofWord?) 1 ((d.word? node).bind ofWord?) := by
  show Evaluates d _ _ (((d.target? node).bind _).bind _)
  rw [Option.bind_assoc]
  refine (follow node).bind (m := 0) fun found => ?_
  cases found with
  | scalar tag style text =>
    dsimp only
    cases Node.localName? tag with
    | none => exact ofOption
    | some name =>
      by_cases h : style = .plain ∧ (text = "" ∨ Node.isNull text = true)
      · have hnothing : (style == .plain && (text == "" || Node.isNull text)) = true := by
          simpa using h
        simp only [hnothing, if_pos h]
        exact ofOption
      · have hnothing : (style == .plain && (text == "" || Node.isNull text)) = false := by
          simpa using h
        simp only [hnothing, if_neg h]
        exact throw _
  | _ => exact throw _

theorem fieldOr {fields : List (String × Node)} {name : String} {other : α}
    {readValue : Node → Reading α} {value? : Node → Option α}
    (hvalue : ∀ node, Evaluates d (readValue node) 1 (value? node)) :
    Evaluates d (fieldOr fields name other readValue) 1
      ((fields.lookup name).elim (some other) value?) := by
  rw [Yaml.fieldOr]
  cases fields.lookup name with
  | none => exact (pure other).mono (Nat.zero_le 1)
  | some node => exact hvalue node

/-- The fields of a node that is no alias itself take an alias for each pair, as the keys may be
aliases. -/
theorem fields {known : List String} (hown : node.IsOwn) :
    Evaluates d (node.fields known) node.width (d.fields? known node) := by
  have hself : node.follow = Pure.pure node := by
    cases node with
    | reference slot => exact absurd rfl (hown slot)
    | _ => rfl
  rw [Node.fields, hself, pure_bind]
  cases node with
  | reference slot => exact absurd rfl (hown slot)
  | mapping tag pairs =>
    have hpairs : Evaluates d
        (pairs.mapM fun (key, value) => do return (← key.text, value)) pairs.length
        (pairs.mapM fun (key, value) => do return (← d.text? key, value)) :=
      mapM (fun (key, value) => (text key).bind (m := 0) fun name => pure (name, value)) pairs
    refine hpairs.bind (m := 1) fun entries => ?_
    dsimp only
    split
    case h_1 name hname =>
      have hcount := List.find?_some hname
      rw [decide_eq_true_eq] at hcount
      rw [if_neg]
      · exact (throw _).mono (Nat.zero_le 1)
      · intro hall
        have hle := List.all_eq_true.mp hall name (List.mem_of_find?_eq_some hname)
        rw [decide_eq_true_eq] at hle
        exact Nat.not_lt.mpr hle hcount
    case h_2 hnone =>
      rw [if_pos]
      · exact (pure _).mono (Nat.zero_le 1)
      · simpa using hnone
  | scalar | sequence =>
    refine Evaluates.mono (n := 0) ?_ (Nat.zero_le _)
    dsimp only [Document.fields?, Document.entries?]
    split
    · simpa using pure []
    · exact throw _

end Evaluates

/-- What a text describes is the value of its document, if the aliases do not run out. -/
theorem decode_eq_ok_iff {readRoot : Node → Reading α} {value? : Document → Node → Option α}
    {text : String} {a : α}
    (h : ∀ d, Document.read text = .ok d →
      Evaluates d (readRoot d.top) (100 * d.size) (value? d d.top)) :
    decode readRoot text = .ok a ↔ ∃ d, Document.read text = .ok d ∧ value? d d.top = some a := by
  rw [decode, bind_eq_ok_iff]
  refine exists_congr fun d => and_congr_right fun hd => ?_
  rw [bind_eq_ok_iff]
  constructor
  · rintro ⟨⟨a', left⟩, hrun, ha⟩
    obtain rfl : a' = a := Except.ok.inj ha
    exact (h d hd).sound _ a' left hrun
  · intro ha
    obtain ⟨left, hrun, -⟩ := (h d hd).complete a 0 ha
    rw [Nat.zero_add] at hrun
    exact ⟨(a, left), hrun, rfl⟩

end Readings

/-! ## Fields -/

section Fields

variable {α : Type} {entries : List (String × Node)} {known : List String} {name : String}
  {value? : Node → Option α} {given : Option α}

/-- What the entries of a mapping say under a name. -/
inductive FieldIs (entries : List (String × Node)) (name : String) (value? : Node → Option α) :
    Option α → Prop where
  /-- There is no entry of the name. -/
  | missing : (∀ entry ∈ entries, entry.1 ≠ name) → FieldIs entries name value? none
  /-- There is one entry of the name, and its node has a value. -/
  | present {node : Node} {a : α} : entries.filter (·.1 = name) = [(name, node)] →
      value? node = some a → FieldIs entries name value? (some a)

/-- The first entry of a name is the first one of those that have it. -/
theorem lookup_eq_head?_filter (entries : List (String × Node)) (name : String) :
    entries.lookup name = (entries.filter (·.1 = name)).head?.map Prod.snd := by
  induction entries with
  | nil => rfl
  | cons entry entries ih =>
    obtain ⟨found, node⟩ := entry
    by_cases h : found = name
    · subst h
      simp
    · have hne : (name == found) = false := by
        simpa using Ne.symm h
      rw [List.lookup_cons, hne, ih, List.filter_cons_of_neg (by simpa using h)]

/-- The entries of a known name are among those of all known names. -/
theorem filter_filter_known (hname : name ∈ known) :
    (entries.filter (known.contains ·.1)).filter (·.1 = name) =
      entries.filter (·.1 = name) := by
  rw [List.filter_filter]
  refine List.filter_congr fun entry _ => ?_
  by_cases h : entry.1 = name <;> simp [h, hname]

theorem lookup_filter_known (hname : name ∈ known) :
    (entries.filter (known.contains ·.1)).lookup name = entries.lookup name := by
  rw [lookup_eq_head?_filter, filter_filter_known hname, ← lookup_eq_head?_filter]

/-- The known fields of a mapping are its entries of known names, if none of them is there twice. -/
theorem Document.fields?_eq_some_iff {d : Document} {node : Node} {found : List (String × Node)} :
    d.fields? known node = some found ↔
      ∃ entries, d.entries? node = some entries ∧
        (∀ name ∈ known, (entries.filter (·.1 = name)).length ≤ 1) ∧
        entries.filter (known.contains ·.1) = found := by
  have hcount : ∀ (l : List (String × Node)) (name : String),
      (l.map (·.1)).count name = (l.filter (·.1 = name)).length := by
    intro l name
    rw [List.count, List.countP_map, List.countP_eq_length_filter]
    rfl
  show (d.entries? node).bind _ = some found ↔ _
  rw [Option.bind_eq_some_iff]
  refine exists_congr fun entries => and_congr_right fun _ => ?_
  have hall : ((known.all fun name =>
      ((entries.filter (known.contains ·.1)).map (·.1)).count name ≤ 1) = true) ↔
      ∀ name ∈ known, (entries.filter (·.1 = name)).length ≤ 1 := by
    rw [List.all_eq_true]
    refine forall₂_congr fun name hname => ?_
    rw [decide_eq_true_eq, hcount, filter_filter_known hname]
  simp only [hall, Option.ite_none_right_eq_some, Option.some.injEq]

/-- Entries of a name that is there once at most are none, or one that has a node. -/
theorem filter_eq_nil_or_singleton (honce : (entries.filter (·.1 = name)).length ≤ 1) :
    entries.filter (·.1 = name) = [] ∨ ∃ node, entries.filter (·.1 = name) = [(name, node)] := by
  rcases List.eq_nil_or_concat' (entries.filter (·.1 = name)) with hnil | ⟨front, entry, hfilter⟩
  · exact Or.inl hnil
  · rw [hfilter, List.length_append, List.length_singleton] at honce
    obtain rfl : front = [] := List.eq_nil_of_length_eq_zero (by omega)
    obtain ⟨found, node⟩ := entry
    have hmem : (found, node) ∈ entries.filter (·.1 = name) := by
      rw [hfilter]
      exact List.mem_singleton_self _
    obtain rfl : found = name := by
      simpa using (List.mem_filter.mp hmem).2
    exact Or.inr ⟨node, hfilter⟩

namespace FieldIs

theorem filter_eq_nil (h : ∀ entry ∈ entries, entry.1 ≠ name) :
    entries.filter (·.1 = name) = [] :=
  List.filter_eq_nil_iff.mpr fun entry hentry => by simpa using h entry hentry

/-- No entry of the name is without a value. -/
theorem value?_ne_none {node : Node} (h : FieldIs entries name value? given)
    (hmem : (name, node) ∈ entries) : value? node ≠ none := by
  cases h with
  | missing hmissing => exact absurd rfl (hmissing _ hmem)
  | @present found a hpresent hvalue =>
    have hfilter : (name, node) ∈ entries.filter (·.1 = name) := by
      simpa using hmem
    rw [hpresent, List.mem_singleton, Prod.mk.injEq] at hfilter
    obtain rfl := hfilter.2
    rw [hvalue]
    exact Option.some_ne_none a

theorem length_filter_le (h : FieldIs entries name value? given) :
    (entries.filter (·.1 = name)).length ≤ 1 := by
  cases h with
  | missing hmissing => simp [filter_eq_nil hmissing]
  | present hpresent _ => simp [hpresent]

end FieldIs

/-- Of a field that is there once at most, what is read is its value, or the other one for it. -/
theorem elim_lookup_eq_some_iff {other a : α}
    (honce : (entries.filter (·.1 = name)).length ≤ 1) :
    (entries.lookup name).elim (some other) value? = some a ↔
      ∃ given, FieldIs entries name value? given ∧ given.getD other = a := by
  rw [lookup_eq_head?_filter]
  constructor
  · intro h
    rcases filter_eq_nil_or_singleton honce with hfilter | ⟨node, hfilter⟩
    · rw [hfilter] at h
      refine ⟨none, .missing fun entry hentry => ?_, Option.some.inj h⟩
      simpa using List.filter_eq_nil_iff.mp hfilter entry hentry
    · rw [hfilter] at h
      exact ⟨some a, .present hfilter h, rfl⟩
  · rintro ⟨given, hgiven, rfl⟩
    cases hgiven with
    | missing hmissing =>
      rw [FieldIs.filter_eq_nil hmissing]
      rfl
    | present hpresent hvalue =>
      rw [hpresent]
      exact hvalue

end Fields

/-! ## Numbers -/

/-- Only zero is written with a zero in front. -/
theorem head?_toDigits_ne_zero {n : Nat} (h : 0 < n) : (Nat.toDigits 10 n).head? ≠ some '0' := by
  have hdigits : ∀ digit < 10, 0 < digit → Nat.digitChar digit ≠ '0' := by
    decide
  induction n using Nat.strongRecOn with
  | ind n ih =>
    by_cases hsmall : n < 10
    · rw [Nat.toDigits_of_lt_base hsmall]
      simpa using hdigits n hsmall h
    · rw [Nat.toDigits_of_base_le (by decide) (by omega),
        List.head?_append_of_ne_nil _ Nat.toDigits_ne_nil]
      exact ih (n / 10) (by omega) (by omega)

theorem Node.digits?_of_isDigit {cs : List Char} (hne : cs ≠ [])
    (h : ∀ c ∈ cs, c.isDigit = true) : Node.digits? 10 cs = some (Nat.ofDigitChars 10 cs 0) := by
  have hstep : ∀ number : Nat, ∀ c ∈ cs, (do
      let digit ← Text.hexValue? c
      if digit < 10 then some (10 * number + digit) else none) =
      some (10 * number + (c.toNat - '0'.toNat)) := by
    intro number c hc
    have hdigit := Char.isDigit_iff_toNat.mp (h c hc)
    have hlast : c.toNat ≤ 57 := hdigit.2
    have hzero : '0'.toNat = 48 := rfl
    rw [Text.hexValue?, if_pos (h c hc)]
    exact if_pos (by omega)
  rw [Node.digits?, if_neg (by simpa using hne), Nat.ofDigitChars_eq_foldl]
  generalize (0 : Nat) = number
  clear hne h
  induction cs generalizing number with
  | nil => rfl
  | cons c cs ih =>
    rw [List.foldlM_cons, hstep number c List.mem_cons_self]
    exact ih (fun number d hd => hstep number d (List.mem_cons_of_mem c hd)) _

/-- A number is read from its digits. -/
theorem Node.uint64?_toString (n : UInt64) : Node.uint64? (toString n) = some n := by
  have htext : (toString n).toList = Nat.toDigits 10 n.toNat := by
    show (toString n.toNat).toList = _
    rw [Nat.toString_eq_ofList_toDigits, String.toList_ofList]
  have hdigits : ∀ c ∈ Nat.toDigits 10 n.toNat, c.isDigit = true := fun c hc =>
    Nat.isDigit_of_mem_toDigits (by decide) (by decide) hc
  have hbase : Node.base? (Nat.toDigits 10 n.toNat) = none := by
    unfold Node.base?
    split
    case h_4 => rfl
    all_goals
      next heq =>
        rw [heq] at hdigits
        simp at hdigits
  have hzero : ¬(1 < (Nat.toDigits 10 n.toNat).length ∧
      (Nat.toDigits 10 n.toNat).head? = some '0') := by
    rintro ⟨hlength, hhead⟩
    by_cases hn : n.toNat = 0
    · rw [hn] at hlength
      simp at hlength
    · exact head?_toDigits_ne_zero (by omega) hhead
  unfold Node.uint64?
  rw [htext]
  split
  case h_1 heq =>
    rw [heq] at hdigits
    simp at hdigits
  case h_2 =>
    simp only [hbase, if_neg hzero, Node.digits?_of_isDigit Nat.toDigits_ne_nil hdigits,
      Nat.ofDigitChars_ten_toDigits]
    exact dif_pos n.toNat_lt

end KeyChord.Yaml
