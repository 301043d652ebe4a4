/-
JSON that is written and read again.

A compact text has a token for every token of the value and nothing between them, so the machine
that reads it takes the same steps that the writer took.  `Taken` says of a value that the machine
takes it off the front of some characters, wherever a value may stand.  That it does so for what
is written is shown along the value, with what stands behind an item or a member in the arrays and
objects that are still open.

Nothing that is written is a control character.  So a compact text is one line.
-/
import ZoneKeeper.Json.Parser
import ZoneKeeper.Json.Printer
import ZoneKeeper.Proofs.Numeral

namespace ZoneKeeper.Json

open Text Numeral

/-! ### Strings -/

section Strings

variable {c : Char} {cs rest : List Char} {parts : List Part}

/-- A control character that is escaped by its number is no half of a surrogate pair. -/
theorem spell?_unit {n : Nat} (h : n < 0x20) (parts : List Part) :
    spell? (.unit n :: parts) = (spell? parts).map (Char.ofNat n :: ·) := by
  have hhigh : isHighSurrogate n = false := by simp [isHighSurrogate]; omega
  have hlow : isLowSurrogate n = false := by simp [isLowSurrogate]; omega
  cases parts with
  | nil => simp [spell?, hhigh, hlow]
  | cons part parts =>
    cases part <;> simp [spell?, hhigh, hlow]

/-- A character after a backslash, but for the letter that a number follows. -/
theorem scanString_short {e : Char} (hletter : e ≠ 'u') (hescaped : escaped? e = some c) :
    scanString ('\\' :: e :: cs) =
      (scanString cs).map fun scanned => (.char c :: scanned.1, scanned.2) := by
  rw [scanString.eq_4 _ _ (fun _ _ _ _ _ he _ => hletter he), hescaped]
  cases scanString cs <;> rfl

/-- A control character after its number. -/
theorem scanString_numbered {n : Nat} (h : n < 0x20) :
    scanString ('\\' :: 'u' :: '0' :: '0' :: hexDigit (n / 16) :: hexDigit (n % 16) :: cs) =
      (scanString cs).map fun scanned => (.unit n :: scanned.1, scanned.2) := by
  have hnumber : ∀ n < 0x20, hex? ['0', '0', hexDigit (n / 16), hexDigit (n % 16)] = some n := by
    decide
  rw [scanString, hnumber n h]
  cases scanString cs <;> rfl

/-- A character that stands for itself. -/
theorem scanString_plain (hquote : c ≠ '"') (hescape : c ≠ '\\') (h : ¬c.toNat < 0x20) :
    scanString (c :: cs) =
      (scanString cs).map fun scanned => (.char c :: scanned.1, scanned.2) := by
  rw [scanString.eq_def]
  split
  case h_5 c' cs' _ _ hcs =>
    obtain ⟨rfl, rfl⟩ := List.cons.inj hcs
    rw [if_neg h]
    cases scanString cs <;> rfl
  all_goals simp_all

/-- Every character is read again from its escape. -/
theorem exists_part (c : Char) : ∃ part,
    (∀ cs, scanString (escapeChar c ++ cs) =
      (scanString cs).map fun scanned => (part :: scanned.1, scanned.2)) ∧
    ∀ parts, spell? (part :: parts) = (spell? parts).map (c :: ·) := by
  have hchar : ∀ parts, spell? (.char c :: parts) = (spell? parts).map (c :: ·) := fun _ => rfl
  unfold escapeChar
  split
  case h_8 =>
    split
    · next hcontrol =>
      refine ⟨.unit c.toNat, fun cs => scanString_numbered hcontrol, fun parts => ?_⟩
      rw [spell?_unit hcontrol, Char.ofNat_toNat]
    · next hplain => exact ⟨.char c, fun cs => scanString_plain ‹_› ‹_› hplain, hchar⟩
  all_goals exact ⟨.char _, fun cs => scanString_short (by decide) rfl, hchar⟩

theorem scanString_escaped (s : List Char) (rest : List Char) :
    ∃ parts, scanString (s.flatMap escapeChar ++ '"' :: rest) = some (parts, rest) ∧
      spell? parts = some s := by
  induction s with
  | nil => exact ⟨[], rfl, rfl⟩
  | cons c s ih =>
    obtain ⟨parts, hscan, hspell⟩ := ih
    obtain ⟨part, hpart, hchar⟩ := exists_part c
    refine ⟨part :: parts, ?_, ?_⟩
    · rw [List.flatMap_cons, List.append_assoc, hpart, hscan]
      rfl
    · rw [hchar, hspell]
      rfl

theorem scanToken_string (cs : List Char) : scanToken ('"' :: cs) = (scanString cs).map
    fun scanned => (.string ((spell? scanned.1).map String.ofList), scanned.2) := rfl

/-- **A string is read again from its literal,** and so is one without a text. -/
theorem scanToken_quote (text : Option String) (rest : List Char) :
    scanToken (quote text ++ rest) = some (.string text, rest) := by
  cases text with
  | none =>
    have hhalf : scanString ('\\' :: 'u' :: 'd' :: '8' :: '0' :: '0' :: '"' :: rest) =
        some ([.unit 0xd800], rest) := by
      rw [scanString, show hex? ['d', '8', '0', '0'] = some 0xd800 by decide]
      rfl
    rw [show quote none = '"' :: ['\\', 'u', 'd', '8', '0', '0', '"'] by decide, List.cons_append,
      scanToken_string]
    show (scanString ('\\' :: 'u' :: 'd' :: '8' :: '0' :: '0' :: '"' :: rest)).map _ = _
    rw [hhalf]
    rfl
  | some s =>
    obtain ⟨parts, hscan, hspell⟩ := scanString_escaped s.toList rest
    have hquote : quote (some s) ++ rest = '"' :: (s.toList.flatMap escapeChar ++ '"' :: rest) := by
      show '"' :: (s.toList.flatMap escapeChar ++ ['"']) ++ rest = _
      simp
    rw [hquote, scanToken_string, hscan, Option.map_some, hspell, Option.map_some,
      String.ofList_toList]

end Strings

/-! ### Numbers -/

section Numbers

variable {cs rest : List Char}

theorem isNumberChar_of_isDigit {c : Char} (h : c.isDigit = true) : isNumberChar c = true := by
  simp [isNumberChar, h]

theorem isNumberChar_of_isExponent (h : isExponent cs = true) :
    ∀ c ∈ cs, isNumberChar c = true := by
  cases cs with
  | nil => simp
  | cons e cs =>
    simp only [isExponent, Bool.and_eq_true, Bool.or_eq_true, beq_iff_eq, List.all_eq_true] at h
    obtain ⟨⟨he, -⟩, hdigits⟩ := h
    refine List.forall_mem_cons.mpr ⟨by rcases he with rfl | rfl <;> rfl, fun c hc => ?_⟩
    split at hdigits
    · next hsign =>
      cases cs with
      | nil => contradiction
      | cons s cs =>
        rcases List.mem_cons.mp hc with rfl | hc
        · rcases hsign with hsign | hsign <;> cases hsign <;> rfl
        · exact isNumberChar_of_isDigit (hdigits c hc)
    · exact isNumberChar_of_isDigit (hdigits c hc)

theorem isNumberChar_of_isFractionAndExponent (h : isFractionAndExponent cs = true) :
    ∀ c ∈ cs, isNumberChar c = true := by
  unfold isFractionAndExponent at h
  split at h
  · next cs =>
    obtain ⟨-, hrest⟩ := Bool.and_eq_true_iff.mp h
    refine List.forall_mem_cons.mpr ⟨rfl, fun c hc => ?_⟩
    rw [← List.takeWhile_append_dropWhile (p := Char.isDigit) (l := cs), List.mem_append] at hc
    rcases hc with hdigit | hrest'
    · exact isNumberChar_of_isDigit (List.all_eq_true.mp List.all_takeWhile c hdigit)
    · exact isNumberChar_of_isExponent hrest c hrest'
  · exact isNumberChar_of_isExponent h

/-- Number literals are made of the characters that occur in them. -/
theorem isNumberChar_of_isNumber (h : isNumber cs = true) : ∀ c ∈ cs, isNumberChar c = true := by
  have hunsigned : ∀ cs : List Char, isFractionAndExponent (cs.dropWhile Char.isDigit) = true →
      ∀ c ∈ cs, isNumberChar c = true := by
    intro cs hfraction c hc
    rw [← List.takeWhile_append_dropWhile (p := Char.isDigit) (l := cs), List.mem_append] at hc
    rcases hc with hdigit | hrest
    · exact isNumberChar_of_isDigit (List.all_eq_true.mp List.all_takeWhile c hdigit)
    · exact isNumberChar_of_isFractionAndExponent hfraction c hrest
  unfold isNumber at h
  have hfraction := (Bool.and_eq_true_iff.mp h).2
  split at hfraction
  · next hsign =>
    cases cs with
    | nil => contradiction
    | cons s cs =>
      cases hsign
      exact List.forall_mem_cons.mpr ⟨rfl, hunsigned cs hfraction⟩
  · exact hunsigned cs hfraction

theorem apart_number {literal : String} (h : isNumber literal.toList = true) (rest : List Char) :
    Apart isSpace (literal.toList ++ rest) := by
  cases hliteral : literal.toList with
  | nil =>
    rw [hliteral] at h
    contradiction
  | cons c cs =>
    have hc : isNumberChar c = true :=
      isNumberChar_of_isNumber h c (hliteral ▸ List.mem_cons_self)
    refine apart_cons (Bool.eq_false_iff.mpr fun hspace => ?_)
    simp only [isSpace, Bool.or_eq_true, beq_iff_eq] at hspace
    rcases hspace with ((rfl | rfl) | rfl) | rfl <;> exact absurd hc (by decide)

theorem scanToken_number {literal : String} (h : isNumber literal.toList = true)
    (hrest : Apart isNumberChar rest) :
    scanToken (literal.toList ++ rest) = some (.number literal, rest) := by
  have hchars := isNumberChar_of_isNumber h
  have htake : (literal.toList ++ rest).takeWhile isNumberChar = literal.toList := by
    rw [List.takeWhile_append_of_pos hchars]
    cases rest with
    | nil => simp
    | cons c rest => simp [hrest c rfl]
  have hdrop : (literal.toList ++ rest).dropWhile isNumberChar = rest := by
    rw [List.dropWhile_append_of_pos hchars, dropWhile_of_apart hrest]
  cases hliteral : literal.toList with
  | nil =>
    rw [hliteral] at h
    contradiction
  | cons c cs =>
    rw [← hliteral]
    have hc : isNumberChar c = true := hchars c (hliteral ▸ List.mem_cons_self)
    unfold scanToken
    split
    case h_11 => rw [htake, hdrop, if_pos h, String.ofList_toList]
    all_goals
      next hcs =>
        rw [hliteral] at hcs
        obtain rfl := (List.cons.inj hcs).1
        exact absurd hc (by decide)

end Numbers

/-! ### The machine -/

section Machine

variable {j item value : Json} {cs middle rest : List Char} {token : Token} {state : State}
  {outer : List Frame} {items : List Json} {key : Option String}
  {members : List (Option String × Json)}

/-- The machine takes a step for a token at the front. -/
theorem run?_of_scanToken (hspace : Apart isSpace cs) (hscan : scanToken cs = some (token, rest)) :
    run? state cs = (state.step? token).bind (run? · rest) := by
  rw [run?, dropWhile_of_apart hspace]
  split
  · next token' rest' hscan' =>
    obtain ⟨rfl, rfl⟩ := Prod.mk.inj (Option.some.inj (hscan.symm.trans hscan'))
    cases state.step? token <;> rfl
  · next hnone => cases hscan.symm.trans hnone

/-- The machine takes a value off the front of the characters, whatever is open. -/
def Taken (j : Json) (cs rest : List Char) : Prop :=
  ∃ token middle, Apart isSpace cs ∧ scanToken cs = some (token, middle) ∧
    ∀ outer, ∃ next, State.ofValueToken? outer token = some next ∧
      run? next middle = run? (.complete j outer) rest

theorem Taken.expectValue (h : Taken j cs rest) :
    run? (.expectValue outer) cs = run? (.complete j outer) rest := by
  obtain ⟨token, middle, hspace, hscan, hnext⟩ := h
  obtain ⟨next, htoken, hrun⟩ := hnext outer
  rw [run?_of_scanToken hspace hscan, State.step?, htoken, Option.bind_some, hrun]

/-- The first item of an array, where it could also end. -/
theorem Taken.expectItem (h : Taken j cs rest) :
    run? (.expectItem outer) cs = run? (.complete j (.array [] :: outer)) rest := by
  obtain ⟨token, middle, hspace, hscan, hnext⟩ := h
  obtain ⟨next, htoken, hrun⟩ := hnext (.array [] :: outer)
  have hstep : State.step? (.expectItem outer) token =
      State.ofValueToken? (.array [] :: outer) token := by
    cases token <;> first | rfl | cases htoken
  rw [run?_of_scanToken hspace hscan, hstep, htoken, Option.bind_some, hrun]

end Machine

/-! ### What is written -/

mutual

/-- The numbers of a value are number literals. -/
def Writable : Json → Prop
  | .number literal => isNumber literal.toList = true
  | .array items => WritableItems items
  | .object members => WritableMembers members
  | .null | .bool _ | .string _ => True

/-- So are those of all items. -/
def WritableItems : List Json → Prop
  | [] => True
  | item :: items => item.Writable ∧ WritableItems items

/-- So are those of the values of all members. -/
def WritableMembers : List (Option String × Json) → Prop
  | [] => True
  | (_, value) :: members => value.Writable ∧ WritableMembers members

end

/-- What is written behind an item of an array. -/
def moreItems : List Json → List Char
  | [] => []
  | items => ',' :: itemsChars items

/-- What is written behind a member of an object. -/
def moreMembers : List (Option String × Json) → List Char
  | [] => []
  | members => ',' :: membersChars members

theorem itemsChars_cons (item : Json) (items : List Json) :
    itemsChars (item :: items) = item.chars ++ moreItems items := by
  cases items <;> simp [itemsChars, moreItems]

theorem membersChars_cons (key : Option String) (value : Json)
    (members : List (Option String × Json)) :
    membersChars ((key, value) :: members) =
      quote key ++ ':' :: (value.chars ++ moreMembers members) := by
  cases members <;> simp [membersChars, moreMembers]

theorem apart_moreItems (items : List Json) (rest : List Char) :
    Apart isNumberChar (moreItems items ++ ']' :: rest) := by
  cases items <;> simp [moreItems, Apart] <;> decide

theorem apart_moreMembers (members : List (Option String × Json)) (rest : List Char) :
    Apart isNumberChar (moreMembers members ++ '}' :: rest) := by
  cases members <;> simp [moreMembers, Apart] <;> decide

theorem quote_eq_cons (text : Option String) : ∃ cs, quote text = '"' :: cs := by
  cases text <;> exact ⟨_, rfl⟩

theorem apart_quote (text : Option String) (rest : List Char) :
    Apart isSpace (quote text ++ rest) := by
  obtain ⟨cs, hcs⟩ := quote_eq_cons text
  rw [hcs]
  exact apart_cons (by decide)

/-- A key and the colon behind it. -/
theorem run?_key (state : State) (outer : List Frame) (key : Option String)
    (hstate : state.step? (.string key) = some (.expectColon members key outer))
    (rest : List Char) :
    run? state (quote key ++ ':' :: rest) =
      run? (.expectValue (.object members key :: outer)) rest := by
  rw [run?_of_scanToken (apart_quote key _) (scanToken_quote key _), hstate, Option.bind_some,
    run?_of_scanToken (apart_cons (by decide)) (show scanToken (':' :: rest) = _ from rfl)]
  rfl

mutual

/-- **The machine takes a value off the front of what is written for it.** -/
theorem taken_chars : ∀ (j : Json), j.Writable → ∀ rest, Apart isNumberChar rest →
    Taken j (j.chars ++ rest) rest
  | .null, _, rest, _ => ⟨.null, rest, apart_cons (by decide), rfl, fun _ => ⟨_, rfl, rfl⟩⟩
  | .bool true, _, rest, _ =>
    ⟨.bool true, rest, apart_cons (by decide), rfl, fun _ => ⟨_, rfl, rfl⟩⟩
  | .bool false, _, rest, _ =>
    ⟨.bool false, rest, apart_cons (by decide), rfl, fun _ => ⟨_, rfl, rfl⟩⟩
  | .number literal, h, rest, hrest =>
    ⟨.number literal, rest, apart_number h rest, scanToken_number h hrest, fun _ => ⟨_, rfl, rfl⟩⟩
  | .string text, _, rest, _ =>
    ⟨.string text, rest, apart_quote text rest, scanToken_quote text rest, fun _ => ⟨_, rfl, rfl⟩⟩
  | .array items, h, rest, _ => by
    have hchars : (Json.array items).chars ++ rest = '[' :: (itemsChars items ++ ']' :: rest) := by
      simp [chars]
    rw [hchars]
    refine ⟨.openArray, _, apart_cons (by decide), rfl, fun outer => ⟨.expectItem outer, rfl, ?_⟩⟩
    cases items with
    | nil =>
      rw [show itemsChars [] ++ ']' :: rest = ']' :: rest from rfl,
        run?_of_scanToken (apart_cons (by decide)) (show scanToken (']' :: rest) = _ from rfl)]
      rfl
    | cons item items =>
      rw [itemsChars_cons, List.append_assoc,
        (taken_chars item h.1 _ (apart_moreItems items rest)).expectItem]
      exact run?_moreItems items h.2 item [] outer rest
  | .object members, h, rest, _ => by
    have hchars : (Json.object members).chars ++ rest =
        '{' :: (membersChars members ++ '}' :: rest) := by
      simp [chars]
    rw [hchars]
    refine ⟨.openObject, _, apart_cons (by decide), rfl,
      fun outer => ⟨.expectFirstKey outer, rfl, ?_⟩⟩
    match members, h with
    | [], _ =>
      rw [show membersChars [] ++ '}' :: rest = '}' :: rest from rfl,
        run?_of_scanToken (apart_cons (by decide)) (show scanToken ('}' :: rest) = _ from rfl)]
      rfl
    | (key, value) :: members, h =>
      rw [membersChars_cons, List.append_assoc, List.cons_append, List.append_assoc,
        run?_key _ outer key rfl,
        (taken_chars value h.1 _ (apart_moreMembers members rest)).expectValue]
      exact run?_moreMembers members h.2 value key [] outer rest

/-- What stands behind an item finishes the array. -/
theorem run?_moreItems : ∀ (items : List Json), WritableItems items → ∀ item done outer rest,
    run? (.complete item (.array done :: outer)) (moreItems items ++ ']' :: rest) =
      run? (.complete (.array (done.reverse ++ item :: items)) outer) rest
  | [], _, item, done, outer, rest => by
    rw [show moreItems [] ++ ']' :: rest = ']' :: rest from rfl,
      run?_of_scanToken (apart_cons (by decide)) (show scanToken (']' :: rest) = _ from rfl)]
    simp [State.step?, State.afterValue?]
  | next :: items, h, item, done, outer, rest => by
    rw [show moreItems (next :: items) ++ ']' :: rest =
        ',' :: (itemsChars (next :: items) ++ ']' :: rest) from rfl,
      run?_of_scanToken (apart_cons (by decide)) (show scanToken (',' :: _) = _ from rfl),
      itemsChars_cons, List.append_assoc]
    have hnext : run? (.expectValue (.array (item :: done) :: outer)) _ =
        run? (.complete next _) _ :=
      (taken_chars next h.1 _ (apart_moreItems items rest)).expectValue
    have hmore := run?_moreItems items h.2 next (item :: done) outer rest
    rw [List.reverse_cons, List.append_assoc, List.singleton_append] at hmore
    exact hnext.trans hmore

/-- What stands behind a member finishes the object. -/
theorem run?_moreMembers : ∀ (members : List (Option String × Json)), WritableMembers members →
    ∀ value key done outer rest,
    run? (.complete value (.object done key :: outer)) (moreMembers members ++ '}' :: rest) =
      run? (.complete (.object (done.reverse ++ (key, value) :: members)) outer) rest
  | [], _, value, key, done, outer, rest => by
    rw [show moreMembers [] ++ '}' :: rest = '}' :: rest from rfl,
      run?_of_scanToken (apart_cons (by decide)) (show scanToken ('}' :: rest) = _ from rfl)]
    simp [State.step?, State.afterValue?]
  | (nextKey, next) :: members, h, value, key, done, outer, rest => by
    rw [show moreMembers ((nextKey, next) :: members) ++ '}' :: rest =
        ',' :: (membersChars ((nextKey, next) :: members) ++ '}' :: rest) from rfl,
      run?_of_scanToken (apart_cons (by decide)) (show scanToken (',' :: _) = _ from rfl),
      membersChars_cons, List.append_assoc, List.cons_append, List.append_assoc]
    have hkey := run?_key (.expectKey ((key, value) :: done) outer) outer nextKey rfl
      (next.chars ++ (moreMembers members ++ '}' :: rest))
    have hnext : run? (.expectValue (.object ((key, value) :: done) nextKey :: outer)) _ =
        run? (.complete next _) _ :=
      (taken_chars next h.1 _ (apart_moreMembers members rest)).expectValue
    have hmore := run?_moreMembers members h.2 next nextKey ((key, value) :: done) outer rest
    rw [List.reverse_cons, List.append_assoc, List.singleton_append] at hmore
    exact hkey.trans (hnext.trans hmore)

end

/-- **A value is read again from its compact text.** -/
theorem parse?_compact {j : Json} (h : j.Writable) : parse? j.compact = some j := by
  have htaken := taken_chars j h [] (by simp [Apart])
  rw [List.append_nil] at htaken
  rw [parse?, compact, String.toList_ofList, htaken.expectValue]
  simp [run?, scanToken, isNumber, State.result?]

/-! ### No control characters -/

/-- None of the characters is a control character. -/
def Clean (cs : List Char) : Prop :=
  ∀ c ∈ cs, 0x20 ≤ c.toNat

instance (cs : List Char) : Decidable (Clean cs) :=
  List.decidableBAll (fun (c : Char) => 0x20 ≤ c.toNat) cs

theorem clean_append {cs ds : List Char} : Clean (cs ++ ds) ↔ Clean cs ∧ Clean ds :=
  List.forall_mem_append

theorem clean_cons {c : Char} {cs : List Char} : Clean (c :: cs) ↔ 0x20 ≤ c.toNat ∧ Clean cs :=
  List.forall_mem_cons

theorem clean_escapeChar (c : Char) : Clean (escapeChar c) := by
  have hdigits : ∀ n < 0x20, Clean [hexDigit (n / 16), hexDigit (n % 16)] := by
    decide
  unfold escapeChar
  split
  case h_8 =>
    split
    · next hcontrol =>
      have hmark : Clean ['\\', 'u', '0', '0'] := by decide
      exact clean_append.mpr ⟨hmark, hdigits c.toNat hcontrol⟩
    · next hplain => exact clean_cons.mpr ⟨by omega, by simp [Clean]⟩
  all_goals decide

theorem clean_quote (text : Option String) : Clean (quote text) := by
  cases text with
  | none => decide
  | some s =>
    refine clean_cons.mpr ⟨by decide, clean_append.mpr ⟨fun c hc => ?_, by decide⟩⟩
    obtain ⟨source, -, hescaped⟩ := List.mem_flatMap.mp hc
    exact clean_escapeChar source c hescaped

theorem clean_number {cs : List Char} (h : isNumber cs = true) : Clean cs := by
  intro c hc
  have hnumber := isNumberChar_of_isNumber h c hc
  simp only [isNumberChar, Bool.or_eq_true, beq_iff_eq, Char.isDigit, Bool.and_eq_true,
    decide_eq_true_eq] at hnumber
  rcases hnumber with ((((hdigit | rfl) | rfl) | rfl) | rfl) | rfl
  · have hlow : 48 ≤ c.toNat := UInt32.le_iff_toNat_le.mp hdigit.1
    omega
  all_goals decide

mutual

/-- **Nothing that is written is a control character.** -/
theorem clean_chars : ∀ j : Json, j.Writable → Clean j.chars
  | .null, _ => by decide
  | .bool true, _ => by decide
  | .bool false, _ => by decide
  | .number _, h => clean_number h
  | .string text, _ => clean_quote text
  | .array items, h => by
    have hitems := clean_itemsChars items h
    exact clean_append.mpr ⟨clean_cons.mpr ⟨by decide, hitems⟩, by decide⟩
  | .object members, h => by
    have hmembers := clean_membersChars members h
    exact clean_append.mpr ⟨clean_cons.mpr ⟨by decide, hmembers⟩, by decide⟩

theorem clean_itemsChars : ∀ items : List Json, WritableItems items → Clean (itemsChars items)
  | [], _ => by simp [itemsChars, Clean]
  | [item], h => clean_chars item h.1
  | item :: next :: items, h =>
    clean_append.mpr ⟨clean_chars item h.1,
      clean_cons.mpr ⟨by decide, clean_itemsChars (next :: items) h.2⟩⟩

theorem clean_membersChars : ∀ members : List (Option String × Json), WritableMembers members →
    Clean (membersChars members)
  | [], _ => by simp [membersChars, Clean]
  | [(key, value)], h =>
    clean_append.mpr ⟨clean_quote key, clean_cons.mpr ⟨by decide, clean_chars value h.1⟩⟩
  | (key, value) :: next :: members, h => by
    have hvalue := clean_chars value h.1
    have hmore := clean_membersChars (next :: members) h.2
    rw [membersChars_cons]
    exact clean_append.mpr ⟨clean_quote key, clean_cons.mpr ⟨by decide,
      clean_append.mpr ⟨hvalue, clean_cons.mpr ⟨by decide, hmore⟩⟩⟩⟩

end

end ZoneKeeper.Json
