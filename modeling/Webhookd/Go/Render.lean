import Webhookd.Go.Json

/-!
# Writing JSON

Documents made of strings and objects, and the text of one. Reading the text of
a document gives it back (`parse_render`), as long as it does not nest deeper
than the decoder allows: every string of runes, and every object of such
strings, can thus be sent to the decoder.
-/

namespace Go

/-- A document: a string, or an object with named documents. -/
inductive Doc
  | str (cs : List Char)
  | obj (ms : List (List Char × Doc))

/-- A rune inside a string. -/
def escapeRune (c : Char) : GoString :=
  if c = '"' ∨ c = '\\' then [ch '\\', ch c]
  else if c.toNat < 0x20 then
    [ch '\\', ch 'u', ch '0', ch '0', hexDigit (c.toNat / 16), hexDigit (c.toNat % 16)]
  else encodeRune c

/-- A string after its opening quote. -/
def quoted (cs : List Char) : GoString := cs.flatMap escapeRune ++ [ch '"']

mutual

/-- The text of a document. -/
def Doc.render : Doc → GoString
  | .str cs => ch '"' :: quoted cs
  | .obj ms => ch '{' :: renderMembers ms

/-- The text of the members of an object after its opening brace. -/
def renderMembers : List (List Char × Doc) → GoString
  | [] => [ch '}']
  | (name, d) :: ms => ch '"' :: quoted name ++ ch ':' :: d.render ++ renderTail ms

/-- The text of the members of an object after the first one. -/
def renderTail : List (List Char × Doc) → GoString
  | [] => [ch '}']
  | (name, d) :: ms => ch ',' :: ch '"' :: quoted name ++ ch ':' :: d.render ++ renderTail ms

end

mutual

/-- The value of a document. -/
def Doc.toJson : Doc → Json
  | .str cs => .str (encodeRunes cs)
  | .obj ms => .obj (membersToJson ms)

/-- The values of the members of an object. -/
def membersToJson : List (List Char × Doc) → List (GoString × Json)
  | [] => []
  | (name, d) :: ms => (encodeRunes name, d.toJson) :: membersToJson ms

end

mutual

/-- How deep a document nests. -/
def Doc.depth : Doc → Nat
  | .str _ => 0
  | .obj ms => membersDepth ms + 1

/-- How deep the members of an object nest. -/
def membersDepth : List (List Char × Doc) → Nat
  | [] => 0
  | (_, d) :: ms => max d.depth (membersDepth ms)

end

/-! ## Strings -/

theorem stringRune_escapeRune (c : Char) (rest : GoString) :
    ∃ b bs, escapeRune c ++ rest = b :: bs ∧ b ≠ ch '"' ∧ stringRune b bs = some (c, rest) := by
  unfold escapeRune
  split_ifs with hq hc
  · refine ⟨ch '\\', ch c :: rest, rfl, by decide, ?_⟩
    rcases hq with rfl | rfl <;> rfl
  · refine ⟨ch '\\', ch 'u' :: ch '0' :: ch '0' :: _ :: _ :: rest, rfl, by decide, ?_⟩
    have h0 : fromHexChar (ch '0') = some 0 := by decide
    have e : ((0 * 16 + 0) * 16 + c.toNat / 16) * 16 + c.toNat % 16 = c.toNat := by omega
    have h4 : hex4 (ch '0' :: ch '0' :: hexDigit (c.toNat / 16) ::
        hexDigit (c.toNat % 16) :: rest) = some (c.toNat, rest) := by
      simp only [hex4, h0, fromHexChar_hexDigit _ (show c.toNat / 16 < 16 by omega),
        fromHexChar_hexDigit _ (show c.toNat % 16 < 16 by omega), Option.bind_eq_bind,
        Option.bind_some, Option.pure_def, e]
    have hn : ¬(0xD800 ≤ c.toNat ∧ c.toNat < 0xE000) := by omega
    simp only [stringRune, if_true, unicodeEscape, h4, Option.bind_eq_bind, Option.bind_some,
      if_neg hn, Char.ofNat_toNat, Option.pure_def]
  · obtain ⟨b, bs, h, hd⟩ := decodeRune_encodeRune c rest
    -- An ASCII byte decodes to itself: it is neither a quote nor a backslash nor a control.
    have ascii : b.toNat < 0x80 → c = Char.ofNat b.toNat := by
      intro hb
      rw [decodeRune, if_pos hb] at hd
      exact (congrArg Prod.fst hd).symm
    push Not at hq
    refine ⟨b, bs, h, ?_, ?_⟩
    · rintro rfl
      exact hq.1 (ascii (by decide))
    · have hb : b ≠ ch '\\' := by
        rintro rfl
        exact hq.2 (ascii (by decide))
      have hb' : ¬b.toNat < 0x20 := by
        intro hlt
        have hv : b.toNat.isValidChar := .inl (by omega)
        have := congrArg Char.toNat (ascii (by omega))
        rw [Char.ofNat, dif_pos hv] at this
        exact hc (this.trans_lt hlt)
      rw [stringRune.eq_def, if_neg hb, if_neg hb', hd]

theorem stringAux_quoted (cs : List Char) (rest : GoString) :
    ∀ n, (quoted cs ++ rest).length ≤ n → stringAux n (quoted cs ++ rest) = some (cs, rest) := by
  -- On the runes: the escape of one is read back as it, and there are reads left.
  induction cs with
  | nil =>
    intro n hn
    obtain ⟨n, rfl⟩ := Nat.exists_eq_succ_of_ne_zero (show n ≠ 0 by rintro rfl; simp [quoted] at hn)
    simp [quoted, stringAux]
  | cons c cs ih =>
    intro n hn
    have e : quoted (c :: cs) ++ rest = escapeRune c ++ (quoted cs ++ rest) := by simp [quoted]
    obtain ⟨b, bs, h, hb, hr⟩ := stringRune_escapeRune c (quoted cs ++ rest)
    rw [e, h] at hn ⊢
    obtain ⟨n, rfl⟩ := Nat.exists_eq_succ_of_ne_zero (show n ≠ 0 by rintro rfl; simp at hn)
    have hl := length_stringRune hr
    simp only [List.length_cons] at hn
    rw [stringAux, if_neg hb, hr]
    simp [ih n (by omega)]

/-- Reading a quoted string gives the encoding of its runes. -/
theorem string_quoted (cs : List Char) (rest : GoString) :
    string (quoted cs ++ rest) = some (encodeRunes cs, rest) := by
  rw [string, stringAux_quoted cs rest _ le_rfl]
  rfl

/-! ## Documents -/

theorem skipSpace_cons {c : Char} (h : skipSpace [ch c] = [ch c]) (bs : GoString) :
    skipSpace (ch c :: bs) = ch c :: bs := by
  unfold skipSpace at h ⊢
  rw [List.dropWhile_cons] at h ⊢
  split_ifs at h ⊢ <;> simp_all

/-- The text of a document starts at once, without white space. -/
theorem skipSpace_render (d : Doc) (rest : GoString) :
    skipSpace (d.render ++ rest) = d.render ++ rest := by
  cases d with
  | str cs => exact skipSpace_cons (by decide) _
  | obj ms => exact skipSpace_cons (by decide) _

theorem member_render {value : GoString → Option (Json × GoString)} {name : List Char} {d : Doc}
    {rest : GoString} (h : value (d.render ++ rest) = some (d.toJson, rest)) :
    member value (ch '"' :: (quoted name ++ (ch ':' :: (d.render ++ rest)))) =
      some ((encodeRunes name, d.toJson), rest) := by
  simp only [member, if_true, string_quoted, Option.bind_eq_bind, Option.bind_some,
    skipSpace_cons (c := ':') (by decide), skipSpace_render, h, Option.pure_def]

/-- Induction on documents: an object, from its members. -/
theorem Doc.ind {P : Doc → Prop} (str : ∀ cs, P (.str cs))
    (obj : ∀ ms, (∀ m ∈ ms, P m.2) → P (.obj ms)) (d : Doc) : P d :=
  @Doc.rec P (fun ms => ∀ m ∈ ms, P m.2) (fun m => P m.2) str obj
    (fun _ h => absurd h List.not_mem_nil)
    (fun _ _ hm hms m h => (List.mem_cons.1 h).elim (fun e => e ▸ hm) (hms m)) (fun _ _ h => h) d

theorem depth_le_of_mem {ms : List (List Char × Doc)} {n : Nat} (h : membersDepth ms ≤ n) :
    ∀ m ∈ ms, m.2.depth ≤ n := by
  induction ms with
  | nil => exact fun _ hm => absurd hm List.not_mem_nil
  | cons m ms ih =>
    rw [membersDepth, max_le_iff] at h
    intro m' hm'
    rcases List.mem_cons.1 hm' with rfl | hm'
    · exact h.1
    · exact ih h.2 m' hm'

/-- Reading the text of some members gives their values. -/
theorem sepBy_render {n : Nat} {ms : List (List Char × Doc)} :
    ∀ {m : List Char × Doc} {rest : GoString} {fuel : Nat},
    (∀ m' ∈ m :: ms, ∀ rest, value n (m'.2.render ++ rest) = some (m'.2.toJson, rest)) →
    (renderMembers (m :: ms) ++ rest).length ≤ fuel →
    sepBy (member (value n)) (ch '}') fuel (renderMembers (m :: ms) ++ rest) =
      some (membersToJson (m :: ms), rest) := by
  induction ms with
  | nil =>
    rintro ⟨name, d⟩ rest fuel hv hf
    obtain ⟨fuel, rfl⟩ := Nat.exists_eq_succ_of_ne_zero
      (show fuel ≠ 0 by rintro rfl; simp [renderMembers] at hf)
    simp only [renderMembers, renderTail, List.cons_append, List.append_assoc, List.nil_append]
    rw [sepBy, skipSpace_cons (c := '"') (by decide), member_render (hv (name, d) (by simp) _)]
    simp only [Option.bind_eq_bind, Option.bind_some, skipSpace_cons (c := '}') (by decide),
      if_neg (show ch '}' ≠ ch ',' by decide), if_true, membersToJson]
  | cons m' ms ih =>
    rintro ⟨name, d⟩ rest fuel hv hf
    obtain ⟨fuel, rfl⟩ := Nat.exists_eq_succ_of_ne_zero
      (show fuel ≠ 0 by rintro rfl; simp [renderMembers] at hf)
    have hms := @ih m' rest fuel
      (fun m'' hm => hv m'' (List.mem_cons_of_mem _ hm)) (by
        simp only [renderMembers, renderTail, List.cons_append, List.append_assoc,
          List.length_cons, List.length_append] at hf ⊢
        omega)
    simp only [renderMembers, renderTail, List.cons_append, List.append_assoc] at hms ⊢
    rw [sepBy, skipSpace_cons (c := '"') (by decide), member_render (hv (name, d) (by simp) _)]
    simp only [Option.bind_eq_bind, Option.bind_some, skipSpace_cons (c := ',') (by decide),
      if_true, hms, Option.pure_def, membersToJson]

/-- Reading the text of a document gives its value, and leaves what follows. -/
theorem value_render (d : Doc) : ∀ (n : Nat) (rest : GoString), d.depth ≤ n →
    value n (d.render ++ rest) = some (d.toJson, rest) := by
  induction d using Doc.ind with
  | str cs =>
    intro n rest _
    have h : scalarValue (ch '"' :: (quoted cs ++ rest)) = some (.str (encodeRunes cs), rest) := by
      simp [scalarValue, string_quoted]
    cases n with
    | zero => exact h
    | succ n => rw [Doc.render, Doc.toJson, ← h]; rfl
  | obj ms ih =>
    intro n rest hd
    obtain ⟨n, rfl⟩ := Nat.exists_eq_succ_of_ne_zero
      (show n ≠ 0 by rintro rfl; simp [Doc.depth] at hd)
    have hms := depth_le_of_mem (Nat.le_of_succ_le_succ hd)
    rw [Doc.render, List.cons_append, value, if_pos rfl, items, Doc.toJson]
    cases ms with
    | nil => rfl
    | cons m ms =>
      -- There is a member, so the object is not closed at once.
      have hs := @sepBy_render n ms m rest _ (fun m' hm' r => ih m' hm' n r (hms m' hm')) le_rfl
      obtain ⟨bs, hbs⟩ : ∃ bs, renderMembers (m :: ms) ++ rest = ch '"' :: bs :=
        ⟨_, by rw [renderMembers, List.cons_append, List.cons_append, List.cons_append]⟩
      rw [hbs] at hs ⊢
      rw [skipSpace_cons (c := '"') (by decide)]
      simp only [if_neg (show ch '"' ≠ ch '}' by decide), hs, Option.map_some]

/-- White space after the text of a document does not matter. -/
theorem parse_render_append {d : Doc} (h : d.depth ≤ maxNestingDepth) {space : GoString}
    (hs : skipSpace space = []) : parse (d.render ++ space) = some d.toJson := by
  rw [parse, skipSpace_render, value_render d maxNestingDepth space h]
  simp only [Option.bind_eq_bind, Option.bind_some, hs, if_true]

/-- Reading the text of a document gives the document. -/
theorem parse_render {d : Doc} (h : d.depth ≤ maxNestingDepth) :
    parse d.render = some d.toJson := by
  have hp := parse_render_append h (show skipSpace [] = [] from rfl)
  rwa [List.append_nil] at hp

/-! ## Lengths -/

theorem length_escapeRune_le (c : Char) : (escapeRune c).length ≤ 6 := by
  unfold escapeRune
  split_ifs
  · exact Nat.le_add_left 2 4
  · exact le_rfl
  · exact (length_encodeRune_le c).trans (Nat.le_add_left 4 2)

/-- A quoted string is at most six times as long. -/
theorem length_quoted_le (cs : List Char) : (quoted cs).length ≤ 6 * cs.length + 1 := by
  rw [quoted, List.length_append, List.length_flatMap]
  have hsum := List.sum_le_card_nsmul (cs.map fun c => (escapeRune c).length) 6 (by
    intro n hn
    obtain ⟨c, -, rfl⟩ := List.mem_map.mp hn
    exact length_escapeRune_le c)
  rw [List.length_map, smul_eq_mul, mul_comm] at hsum
  exact Nat.add_le_add_right hsum 1

end Go
