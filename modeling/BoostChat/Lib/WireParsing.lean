import BoostChat.Lib.Wire

/-!
# Parsing what another program wrote

`Lib.Wire` reads back what its own writers wrote. An encoding that comes from elsewhere
need not be in that form: a varint may be padded, a field may occur twice, a field may be
one that the message does not know.

* `readField_spec` — a field that was read is well formed, takes no fewer bytes than its
  own encoding does, and is read in the same way whatever follows it;
* `parseMessage_append` — parsing two inputs one after the other goes on, over the second
  one, from the message that the first one gave;
* `mergeFields_kept` — the fields that were kept as unknown are kept again, by any message
  of the type;
* `parseMessage_bound` — a measure that no field raises by more than its encoding stays
  below the size of the input.
-/

namespace BoostChat.Lib.Wire

/-! ## Varints -/

/-- A varint that was read: the bytes it took bound the number, and what follows them
does not matter. -/
theorem readVarint_spec : ∀ {limit : Nat} {input rest : List UInt8} {n : Nat},
    readVarint limit input = some (n, rest) →
      ∃ used, input = used ++ rest ∧ 0 < used.length ∧ used.length ≤ limit ∧
        n < 128 ^ used.length ∧ ∀ more, readVarint limit (used ++ more) = some (n, more) := by
  intro limit
  induction limit with
  | zero =>
    intro input rest n h
    cases h
  | succ limit ih =>
    intro input rest n h
    cases input with
    | nil => cases h
    | cons b input =>
      rw [readVarint] at h
      by_cases hsmall : b.toNat < 128
      · rw [if_pos hsmall] at h
        obtain ⟨rfl, rfl⟩ := Prod.mk.inj (Option.some.inj h)
        refine ⟨[b], rfl, Nat.one_pos, Nat.succ_le_succ (Nat.zero_le _), ?_, fun more => ?_⟩
        · rwa [List.length_singleton, Nat.pow_one]
        · rw [List.singleton_append, readVarint, if_pos hsmall]
      · rw [if_neg hsmall] at h
        obtain ⟨⟨m, rest'⟩, hread, heq⟩ := Option.map_eq_some_iff.mp h
        obtain ⟨rfl, rfl⟩ := Prod.mk.inj heq
        obtain ⟨used, rfl, -, hlimit, hbound, hmore⟩ := ih hread
        have hb := b.toNat_lt
        refine ⟨b :: used, rfl, Nat.succ_pos _, Nat.succ_le_succ hlimit, ?_, fun more => ?_⟩
        · rw [List.length_cons, Nat.pow_succ]
          omega
        · rw [List.cons_append, readVarint, if_neg hsmall, hmore]
          rfl

/-- A number that fits in some groups of seven bits is written in as many bytes at most. -/
theorem length_varintFuel_le : ∀ {fuel k n : Nat}, n < 128 ^ (k + 1) →
    (varintFuel fuel n).length ≤ k + 1 := by
  intro fuel
  induction fuel with
  | zero =>
    intro k n _
    exact Nat.zero_le _
  | succ fuel ih =>
    intro k n hn
    rw [varintFuel]
    by_cases hsmall : n < 128
    · rw [if_pos hsmall]
      exact Nat.succ_le_succ (Nat.zero_le _)
    · rw [if_neg hsmall]
      cases k with
      | zero => omega
      | succ k =>
        have hdiv : n / 128 < 128 ^ (k + 1) := by
          rw [Nat.div_lt_iff_lt_mul (by decide)]
          rwa [Nat.pow_succ] at hn
        exact Nat.succ_le_succ (ih hdiv)

/-- Writing a number takes no more bytes than reading it, or a smaller one, did. -/
theorem length_varint_le {used : List UInt8} {n m : Nat} (hused : 0 < used.length)
    (hn : n < 128 ^ used.length) (hm : m ≤ n) : (varint m).length ≤ used.length := by
  obtain ⟨k, hk⟩ := Nat.exists_eq_succ_of_ne_zero (Nat.ne_of_gt hused)
  rw [hk] at hn ⊢
  exact length_varintFuel_le (Nat.lt_of_le_of_lt hm hn)

/-! ## Fields -/

theorem readBytes_spec {k : Nat} {input bytes rest : List UInt8}
    (h : readBytes k input = some (bytes, rest)) :
    input = bytes ++ rest ∧ bytes.length = k ∧
      ∀ more, readBytes k (bytes ++ more) = some (bytes, more) := by
  unfold readBytes at h
  split at h
  · rename_i hle
    obtain ⟨rfl, rfl⟩ := Prod.mk.inj (Option.some.inj h)
    have hlength : (input.take k).length = k := List.length_take_of_le hle
    refine ⟨(List.take_append_drop k input).symm, hlength, fun more => ?_⟩
    have hread := readBytes_append (input.take k) more
    rwa [hlength] at hread
  · cases h

/-- A value that was read. -/
theorem readValue_spec {wireType : Nat} {input rest : List UInt8} {value : WireValue}
    (h : readValue wireType input = some (value, rest)) :
    ∃ used, input = used ++ rest ∧ value.wireType = wireType ∧ value.Valid ∧
      value.encode.length ≤ used.length ∧
      ∀ more, readValue wireType (used ++ more) = some (value, more) := by
  unfold readValue at h
  split at h
  · obtain ⟨⟨n, rest'⟩, hread, heq⟩ := Option.map_eq_some_iff.mp h
    obtain ⟨rfl, rfl⟩ := Prod.mk.inj heq
    obtain ⟨used, rfl, hpos, -, hbound, hmore⟩ := readVarint_spec hread
    refine ⟨used, rfl, rfl, Nat.mod_lt _ (Nat.two_pow_pos 64), ?_, fun more => ?_⟩
    · exact length_varint_le hpos hbound (Nat.mod_le _ _)
    · rw [readValue, hmore, Option.map_some]
  · obtain ⟨⟨bytes, rest'⟩, hread, heq⟩ := Option.map_eq_some_iff.mp h
    obtain ⟨rfl, rfl⟩ := Prod.mk.inj heq
    obtain ⟨rfl, hlength, hmore⟩ := readBytes_spec hread
    refine ⟨bytes, rfl, rfl, hlength, Nat.le_refl _, fun more => ?_⟩
    rw [readValue, hmore, Option.map_some]
  · -- a length, which may be written in more bytes than it needs, and its bytes
    obtain ⟨⟨size, rest'⟩, hsize, h⟩ := Option.bind_eq_some_iff.mp h
    dsimp only at h
    split at h
    · rename_i hlt
      obtain ⟨⟨bytes, rest''⟩, hread, h⟩ := Option.bind_eq_some_iff.mp h
      obtain ⟨rfl, rfl⟩ := Prod.mk.inj (Option.some.inj h)
      obtain ⟨used, rfl, hpos, -, hbound, hmore⟩ := readVarint_spec hsize
      obtain ⟨rfl, hlength, hmore'⟩ := readBytes_spec hread
      refine ⟨used ++ bytes, (List.append_assoc ..).symm, rfl, ?_, ?_, fun more => ?_⟩
      · show bytes.length < 2 ^ 31 - 16
        rwa [hlength]
      · rw [WireValue.encode, List.length_append, List.length_append, hlength]
        exact Nat.add_le_add_right (length_varint_le hpos hbound (Nat.le_refl _)) _
      · rw [readValue, List.append_assoc, hmore]
        simp only [Option.bind_eq_bind, Option.bind_some, if_pos hlt, hmore', Option.pure_def]
    · cases h
  · obtain ⟨rfl, rfl⟩ := Prod.mk.inj (Option.some.inj h)
    exact ⟨[], rfl, rfl, trivial, Nat.le_refl _, fun _ => rfl⟩
  · obtain ⟨rfl, rfl⟩ := Prod.mk.inj (Option.some.inj h)
    exact ⟨[], rfl, rfl, trivial, Nat.le_refl _, fun _ => rfl⟩
  · obtain ⟨⟨bytes, rest'⟩, hread, heq⟩ := Option.map_eq_some_iff.mp h
    obtain ⟨rfl, rfl⟩ := Prod.mk.inj heq
    obtain ⟨rfl, hlength, hmore⟩ := readBytes_spec hread
    refine ⟨bytes, rfl, rfl, hlength, Nat.le_refl _, fun more => ?_⟩
    rw [readValue, hmore, Option.map_some]
  · cases h

/-- **A field that was read** is well formed, its own encoding is no longer, and what
follows it does not matter. -/
theorem readField_spec {input rest : List UInt8} {f : Field}
    (h : readField input = some (f, rest)) :
    ∃ used, input = used ++ rest ∧ 0 < used.length ∧ f.Valid ∧
      f.encode.length ≤ used.length ∧ ∀ more, readField (used ++ more) = some (f, more) := by
  obtain ⟨⟨tag, afterTag⟩, htag, h⟩ := Option.bind_eq_some_iff.mp h
  dsimp only at h
  split at h
  · cases h
  · rename_i hnumber
    obtain ⟨⟨value, rest'⟩, hvalue, h⟩ := Option.bind_eq_some_iff.mp h
    obtain ⟨rfl, rfl⟩ := Prod.mk.inj (Option.some.inj h)
    obtain ⟨used, rfl, hpos, -, hbound, hmore⟩ := readVarint_spec htag
    obtain ⟨used', rfl, htype, hvalid, hlength, hmore'⟩ := readValue_spec hvalue
    -- the tag is the one that the field writes
    have hwritten : (⟨tag % 2 ^ 32 / 8, value⟩ : Field).tag = tag % 2 ^ 32 := by
      rw [Field.tag, htype]
      exact Nat.div_add_mod _ 8
    refine ⟨used ++ used', (List.append_assoc ..).symm, ?_, ⟨?_, ?_, hvalid⟩, ?_, fun more => ?_⟩
    · rw [List.length_append]
      omega
    · exact Nat.pos_of_ne_zero hnumber
    · show tag % 2 ^ 32 / 8 < 2 ^ 29
      omega
    · rw [Field.encode, hwritten, List.length_append, List.length_append]
      exact Nat.add_le_add (length_varint_le hpos hbound (Nat.mod_le _ _)) hlength
    · rw [readField, List.append_assoc, hmore]
      simp only [Option.bind_eq_bind, Option.bind_some, if_neg hnumber, hmore', Option.pure_def]

theorem encode_append (fs gs : List Field) : encode (fs ++ gs) = encode fs ++ encode gs := by
  rw [encode, List.flatMap_append, encode, encode]

/-- More fuel reads the same fields. -/
theorem readFields_fuel (extra : Nat) : ∀ {fuel : Nat} {input : List UInt8} {fs : List Field},
    readFields fuel input = some fs → readFields (extra + fuel) input = some fs := by
  intro fuel
  induction fuel with
  | zero =>
    intro input fs h
    cases input with
    | nil => rwa [readFields] at h ⊢
    | cons b input => cases h
  | succ fuel ih =>
    intro input fs h
    cases input with
    | nil => rwa [readFields] at h ⊢
    | cons b input =>
      obtain ⟨⟨f, rest⟩, hfield, h⟩ := Option.bind_eq_some_iff.mp h
      obtain ⟨gs, hfields, h⟩ := Option.bind_eq_some_iff.mp h
      obtain rfl := Option.some.inj h
      rw [← Nat.add_assoc, readFields, hfield]
      simp only [Option.bind_eq_bind, Option.bind_some, ih hfields, Option.pure_def]

/-- All fields of an input, and of one that goes on. -/
theorem readFields_spec : ∀ {fuel : Nat} {input : List UInt8} {fs : List Field},
    readFields fuel input = some fs →
      (∀ f ∈ fs, f.Valid) ∧ (encode fs).length ≤ input.length ∧
      ∀ {more : List UInt8} {gs : List Field} {fuel' : Nat}, readFields fuel' more = some gs →
        readFields (fuel + fuel') (input ++ more) = some (fs ++ gs) := by
  intro fuel
  induction fuel with
  | zero =>
    intro input fs h
    cases input with
    | nil =>
      obtain rfl := Option.some.inj h
      refine ⟨fun f hf => absurd hf List.not_mem_nil, Nat.le_refl _, ?_⟩
      intro more gs fuel' hmore
      rwa [Nat.zero_add]
    | cons b input => cases h
  | succ fuel ih =>
    intro input fs h
    cases input with
    | nil =>
      obtain rfl := Option.some.inj h
      refine ⟨fun f hf => absurd hf List.not_mem_nil, Nat.le_refl _, ?_⟩
      exact fun hmore => readFields_fuel _ hmore
    | cons b input =>
      obtain ⟨⟨f, rest⟩, hfield, h⟩ := Option.bind_eq_some_iff.mp h
      obtain ⟨fs', hfields, h⟩ := Option.bind_eq_some_iff.mp h
      obtain rfl := Option.some.inj h
      obtain ⟨used, hinput, hpos, hvalid, hlength, hstable⟩ := readField_spec hfield
      obtain ⟨hvalids, hlengths, hgoes⟩ := ih hfields
      refine ⟨?_, ?_, fun {more gs fuel'} hmore => ?_⟩
      · intro g hg
        rcases List.mem_cons.mp hg with rfl | hg
        · exact hvalid
        · exact hvalids g hg
      · rw [hinput, encode_cons, List.length_append, List.length_append]
        exact Nat.add_le_add hlength hlengths
      · rw [hinput, List.append_assoc]
        cases used with
        | nil => cases hpos
        | cons c used =>
          have hrest := hgoes hmore
          rw [Nat.add_right_comm, List.cons_append, readFields, ← List.cons_append, hstable]
          simp only [Option.bind_eq_bind, Option.bind_some, hrest, Option.pure_def,
            List.cons_append]

/-! ## Messages -/

section Messages

variable {σ : Type} {depth : Nat} {known : Field → Option (σ → Option σ)}

/-- The groups that are open after a field has been kept as unknown. -/
def openGroups (depth : Nat) (groups : List Nat) (f : Field) : Option (List Nat) :=
  match f.value with
  | .startGroup => if groups.length < depth then some (f.number :: groups) else none
  | .endGroup => if groups.head? = some f.number then some groups.tail else none
  | _ => some groups

/-- The update that a field makes: inside a group no field is known. -/
def updateOf (known : Field → Option (σ → Option σ)) (groups : List Nat) (f : Field) :
    Option (σ → Option σ) :=
  if groups = [] then known f else none

theorem updateOf_nil (f : Field) : updateOf known [] f = known f := if_pos rfl

theorem updateOf_cons (n : Nat) (groups : List Nat) (f : Field) :
    updateOf known (n :: groups) f = none := if_neg (List.cons_ne_nil n groups)

/-- One turn of the loop: a field updates the message or is kept. -/
theorem mergeFields_cons (groups : List Nat) (s : σ) (unknown : List Field) (f : Field)
    (fs : List Field) :
    mergeFields depth known groups (s, unknown) (f :: fs) =
      match updateOf known groups f with
      | some update => (update s).bind fun s => mergeFields depth known [] (s, unknown) fs
      | none => (openGroups depth groups f).bind fun groups =>
          mergeFields depth known groups (s, unknown ++ [f]) fs := by
  cases groups with
  | nil =>
    rw [mergeFields, updateOf_nil]
    cases known f with
    | some update => rfl
    | none =>
      cases hvalue : f.value with
      | startGroup =>
        simp only [openGroups, hvalue, List.length_nil]
        split <;> rfl
      | endGroup => simp only [openGroups, hvalue, List.head?_nil, reduceCtorEq, if_false,
          Option.bind_none]
      | varint | fixed64 | bytes | fixed32 =>
        simp only [openGroups, hvalue, Option.bind_some]
  | cons n groups =>
    rw [mergeFields, updateOf_cons]
    cases hvalue : f.value with
    | startGroup =>
      simp only [openGroups, hvalue, List.length_cons]
      split <;> rfl
    | endGroup =>
      simp only [openGroups, hvalue, List.head?_cons, Option.some.injEq, List.tail_cons, eq_comm]
      split <;> rfl
    | varint | fixed64 | bytes | fixed32 =>
      simp only [openGroups, hvalue, Option.bind_some]

/-- **Inversion.** What one field did in a message that was read to its end. -/
theorem mergeFields_cons_cases {groups : List Nat} {s : σ} {unknown : List Field} {f : Field}
    {fs : List Field} {acc : σ × List Field}
    (h : mergeFields depth known groups (s, unknown) (f :: fs) = some acc) :
    (∃ update s', updateOf known groups f = some update ∧ update s = some s' ∧
      mergeFields depth known [] (s', unknown) fs = some acc) ∨
    (updateOf known groups f = none ∧ ∃ groups', openGroups depth groups f = some groups' ∧
      mergeFields depth known groups' (s, unknown ++ [f]) fs = some acc) := by
  rw [mergeFields_cons] at h
  cases hupdate : updateOf known groups f with
  | some update =>
    rw [hupdate] at h
    obtain ⟨s', hs', h⟩ := Option.bind_eq_some_iff.mp h
    exact Or.inl ⟨update, s', rfl, hs', h⟩
  | none =>
    rw [hupdate] at h
    obtain ⟨groups', hgroups, h⟩ := Option.bind_eq_some_iff.mp h
    exact Or.inr ⟨rfl, groups', hgroups, h⟩

/-- A message that was read to its end has no open group, so the parser goes on from it. -/
theorem mergeFields_append {groups : List Nat} {acc acc' : σ × List Field} {fs : List Field}
    (h : mergeFields depth known groups acc fs = some acc') (gs : List Field) :
    mergeFields depth known groups acc (fs ++ gs) = mergeFields depth known [] acc' gs := by
  induction fs generalizing groups acc with
  | nil =>
    cases groups with
    | nil =>
      rw [mergeFields_nil] at h
      rw [List.nil_append, Option.some.inj h]
    | cons n groups =>
      rw [mergeFields] at h
      cases h
  | cons f fs ih =>
    obtain ⟨s, unknown⟩ := acc
    rw [List.cons_append, mergeFields_cons]
    rcases mergeFields_cons_cases h with ⟨update, s', hupdate, hs', h⟩ |
      ⟨hupdate, groups', hgroups, h⟩
    · simp only [hupdate, hs', Option.bind_some]
      exact ih h
    · simp only [hupdate, hgroups, Option.bind_some]
      exact ih h

/-- **The kept fields are kept again**, whatever message of the type they come behind. -/
theorem mergeFields_kept {groups : List Nat} {s s' : σ} {unknown unknown' fs : List Field}
    (h : mergeFields depth known groups (s, unknown) fs = some (s', unknown')) :
    ∃ kept, unknown' = unknown ++ kept ∧ (∀ f ∈ kept, f ∈ fs) ∧
      ∀ t more, mergeFields depth known groups (t, more) kept = some (t, more ++ kept) := by
  induction fs generalizing groups s unknown with
  | nil =>
    cases groups with
    | nil =>
      rw [mergeFields_nil] at h
      obtain ⟨-, rfl⟩ := Prod.mk.inj (Option.some.inj h)
      refine ⟨[], (List.append_nil _).symm, fun _ hf => hf, fun t more => ?_⟩
      rw [mergeFields_nil, List.append_nil]
    | cons n groups =>
      rw [mergeFields] at h
      cases h
  | cons f fs ih =>
    rcases mergeFields_cons_cases h with ⟨update, t, hupdate, -, h⟩ |
      ⟨hupdate, groups', hgroups, h⟩
    · obtain ⟨kept, heq, hmem, hkeeps⟩ := ih h
      refine ⟨kept, heq, fun g hg => List.mem_cons_of_mem f (hmem g hg), fun t more => ?_⟩
      -- a field is known outside of groups only
      cases groups with
      | nil => exact hkeeps t more
      | cons n groups =>
        rw [updateOf_cons] at hupdate
        cases hupdate
    · obtain ⟨kept, heq, hmem, hkeeps⟩ := ih h
      refine ⟨f :: kept, ?_, ?_, fun t more => ?_⟩
      · rw [heq, List.append_assoc, List.singleton_append]
      · intro g hg
        rcases List.mem_cons.mp hg with rfl | hg
        · exact List.mem_cons_self
        · exact List.mem_cons_of_mem f (hmem g hg)
      · rw [mergeFields_cons, hupdate]
        simp only [hgroups, Option.bind_some, hkeeps, List.append_assoc, List.singleton_append]

/-- An update is that of a known field. -/
theorem known_of_updateOf {groups : List Nat} {f : Field} {update : σ → Option σ}
    (h : updateOf known groups f = some update) : known f = some update := by
  cases groups with
  | nil => rwa [updateOf_nil] at h
  | cons n groups =>
    rw [updateOf_cons] at h
    cases h

/-- What every known field keeps holds of the message in the end. -/
theorem mergeFields_invariant {I : σ → Prop}
    (hI : ∀ f update s s', known f = some update → update s = some s' → I s → I s')
    {groups : List Nat} {s s' : σ} {unknown unknown' fs : List Field}
    (h : mergeFields depth known groups (s, unknown) fs = some (s', unknown')) (hs : I s) :
    I s' := by
  induction fs generalizing groups s unknown with
  | nil =>
    cases groups with
    | nil =>
      rw [mergeFields_nil] at h
      exact (Prod.mk.inj (Option.some.inj h)).1 ▸ hs
    | cons n groups =>
      rw [mergeFields] at h
      cases h
  | cons f fs ih =>
    rcases mergeFields_cons_cases h with ⟨update, t, hupdate, ht, h⟩ | ⟨-, groups', -, h⟩
    · exact ih h (hI f update s t (known_of_updateOf hupdate) ht hs)
    · exact ih h hs

/-- What no field raises by more than its encoding is bounded by the fields read so far. -/
theorem mergeFields_bound {size : σ → Nat}
    (hsize : ∀ f update s s', known f = some update → update s = some s' →
      size s' ≤ size s + f.encode.length)
    {groups : List Nat} {s s' : σ} {unknown unknown' fs : List Field}
    (h : mergeFields depth known groups (s, unknown) fs = some (s', unknown')) :
    size s' + (encode unknown').length ≤
      size s + (encode unknown).length + (encode fs).length := by
  induction fs generalizing groups s unknown with
  | nil =>
    cases groups with
    | nil =>
      rw [mergeFields_nil] at h
      obtain ⟨rfl, rfl⟩ := Prod.mk.inj (Option.some.inj h)
      exact Nat.le_refl _
    | cons n groups =>
      rw [mergeFields] at h
      cases h
  | cons f fs ih =>
    rw [encode_cons, List.length_append]
    rcases mergeFields_cons_cases h with ⟨update, t, hupdate, ht, h⟩ | ⟨-, groups', -, h⟩
    · have hgrows := hsize f update s t (known_of_updateOf hupdate) ht
      have hrest := ih h
      omega
    · have hrest := ih h
      rw [encode_append, List.length_append, encode_cons, encode_nil, List.append_nil] at hrest
      omega

/-- What a parser that succeeded has read. -/
theorem parseMessage_spec {init s : σ} {input : List UInt8} {unknown : List Field}
    (h : parseMessage depth known init input = some (s, unknown)) :
    ∃ fs, (∀ f ∈ fs, f.Valid) ∧ (encode fs).length ≤ input.length ∧
      mergeFields depth known [] (init, []) fs = some (s, unknown) ∧
      ∀ {more : List UInt8} {gs : List Field}, readFields more.length more = some gs →
        readFields (input ++ more).length (input ++ more) = some (fs ++ gs) := by
  obtain ⟨fs, hread, hmerge⟩ := Option.bind_eq_some_iff.mp h
  obtain ⟨hvalid, hlength, hgoes⟩ := readFields_spec hread
  refine ⟨fs, hvalid, hlength, hmerge, fun hmore => ?_⟩
  rw [List.length_append]
  exact hgoes hmore

/-- **Two inputs, one after the other.** What follows an input that parses is merged into
the message that was read, field by field. -/
theorem parseMessage_append {init s : σ} {input : List UInt8} {unknown : List Field}
    (h : parseMessage depth known init input = some (s, unknown)) {more : List UInt8}
    {gs : List Field} (hmore : readFields more.length more = some gs) :
    parseMessage depth known init (input ++ more) =
      mergeFields depth known [] (s, unknown) gs := by
  obtain ⟨fs, -, -, hmerge, hgoes⟩ := parseMessage_spec h
  rw [parseMessage, hgoes hmore]
  exact mergeFields_append hmerge gs

/-- **The unknown fields** of a message are fields that the format has, and are kept
again when they are read behind a message. -/
theorem parseMessage_kept {init s : σ} {input : List UInt8} {unknown : List Field}
    (h : parseMessage depth known init input = some (s, unknown)) :
    (∀ f ∈ unknown, f.Valid) ∧ ∀ t more,
      mergeFields depth known [] (t, more) unknown = some (t, more ++ unknown) := by
  obtain ⟨fs, hvalid, -, hmerge, -⟩ := parseMessage_spec h
  obtain ⟨kept, rfl, hmem, hkeeps⟩ := mergeFields_kept hmerge
  exact ⟨fun f hf => hvalid f (hmem f hf), hkeeps⟩

/-- A known field that is left out when it has its default value leaves the message as it
was then. -/
theorem mergeFields_unlessDefault {f : Field} {update : σ → Option σ} {s s' : σ} {p : Prop}
    [Decidable p] (hknown : known f = some update) (hupdate : update s = some s')
    (unknown fs : List Field) :
    mergeFields depth known [] (s, unknown) ((if p then [] else [f]) ++ fs) =
      mergeFields depth known [] (if p then s else s', unknown) fs := by
  split
  · rw [List.nil_append]
  · rw [List.singleton_append, mergeFields_known hknown, hupdate, Option.bind_some]

theorem parseMessage_invariant {I : σ → Prop}
    (hI : ∀ f update s s', known f = some update → update s = some s' → I s → I s')
    {init s : σ} {input : List UInt8} {unknown : List Field}
    (h : parseMessage depth known init input = some (s, unknown)) (hinit : I init) : I s := by
  obtain ⟨fs, -, -, hmerge, -⟩ := parseMessage_spec h
  exact mergeFields_invariant hI hmerge hinit

/-- The measure of a message and the encoding of its unknown fields fit in the input. -/
theorem parseMessage_bound {size : σ → Nat}
    (hsize : ∀ f update s s', known f = some update → update s = some s' →
      size s' ≤ size s + f.encode.length)
    {init s : σ} {input : List UInt8} {unknown : List Field}
    (h : parseMessage depth known init input = some (s, unknown)) :
    size s + (encode unknown).length ≤ size init + input.length := by
  obtain ⟨fs, -, hlength, hmerge, -⟩ := parseMessage_spec h
  have hbound := mergeFields_bound hsize hmerge
  rw [encode_nil, List.length_nil, Nat.add_zero] at hbound
  omega

end Messages

end BoostChat.Lib.Wire
