/-
JSON that is written behind the beginning of other JSON.

An object is never read as a part of what was begun before it, if its first key starts with a
character that starts no token.  Inside a string its first quote ends the string, and what stands
behind that quote starts no token.  Outside a string its brace is a token, so the object can only
start where a value may start; and then nothing follows that could close what is still open.  So an
object is read with nothing but spaces in front of it, or not at all.
-/
import ZoneKeeper.Proofs.JsonText

namespace ZoneKeeper.Json

open Text Numeral

variable {cs after rest : List Char} {c : Char}

/-! ### What is taken before a mark -/

/-- A word without the mark is taken off what stands in front of the mark. -/
theorem exists_of_append_eq {mark : Char} (word : List Char) {ys : List Char}
    (hword : mark ∉ word) (h : cs ++ mark :: after = word ++ ys) :
    ∃ ds, ys = ds ++ mark :: after := by
  rcases List.append_eq_append_iff.mp h with ⟨ds, rfl, hds⟩ | ⟨ds, rfl, rfl⟩
  · cases ds with
    | nil => exact ⟨[], hds.symm⟩
    | cons d ds =>
      obtain ⟨rfl, -⟩ := List.cons.inj hds
      simp at hword
  · exact ⟨ds, rfl⟩

theorem dropWhile_append_of_neg {p : Char → Bool} {mark : Char} (hmark : p mark = false)
    (cs after : List Char) :
    (cs ++ mark :: after).dropWhile p = cs.dropWhile p ++ mark :: after := by
  rw [List.dropWhile_append]
  split
  · next hempty =>
    rw [List.isEmpty_iff.mp hempty, List.dropWhile_cons_of_neg (by simp [hmark]), List.nil_append]
  · rfl

/-! ### Tokens -/

/-- What a scanner leaves of a text with an object at its end: some of what stands in front of the
object, or what stands behind the first quote in it. -/
def Leaves (after rest : List Char) : Prop :=
  (∃ ds, rest = ds ++ '{' :: '"' :: after) ∨ rest = after

/-- The mark of an object is no hexadecimal digit. -/
theorem not_mem_of_hex? {n : Nat} (h : hex? cs = some n) : '{' ∉ cs := by
  rw [hex?, inBase?, Option.ite_none_left_eq_some, Option.map_eq_some_iff] at h
  obtain ⟨-, digits, hdigits, -⟩ := h
  intro hmem
  obtain ⟨_, hdigit⟩ := exists_of_mapM_eq_some hdigits hmem
  cases hdigit

/-- Inside a string the first quote of an object's text ends the string. -/
theorem scanString_joined {parts : List Part}
    (h : scanString (cs ++ '{' :: '"' :: after) = some (parts, rest)) : Leaves after rest := by
  generalize htext : cs ++ '{' :: '"' :: after = text at h
  fun_induction scanString text generalizing cs parts with
  | case1 => simp at h
  | case2 text =>
    obtain rfl : text = rest := by simpa using congrArg (Option.map Prod.snd) h
    exact .inl (exists_of_append_eq ['"'] (by decide) htext)
  -- no escape has a brace in it, so it ends in front of the object
  | case3 a b c d text ih =>
    simp only [Option.bind_eq_bind, Option.bind_eq_some_iff] at h
    obtain ⟨_, hdigits, ⟨_, _⟩, hs, h⟩ := h
    obtain ⟨-, rfl⟩ := Prod.mk.inj (Option.some.inj h)
    have hword : '{' ∉ ['\\', 'u', a, b, c, d] := by simpa using not_mem_of_hex? hdigits
    obtain ⟨ds, rfl⟩ := exists_of_append_eq _ hword htext
    exact ih rfl hs
  | case4 e text _ ih =>
    simp only [Option.bind_eq_bind, Option.bind_eq_some_iff] at h
    obtain ⟨_, hescaped, ⟨_, _⟩, hs, h⟩ := h
    obtain ⟨-, rfl⟩ := Prod.mk.inj (Option.some.inj h)
    have hword : '{' ∉ ['\\', e] := by
      simp only [List.mem_cons, List.not_mem_nil, or_false, not_or]
      refine ⟨by decide, ?_⟩
      rintro rfl
      cases hescaped
    obtain ⟨ds, rfl⟩ := exists_of_append_eq _ hword htext
    exact ih rfl hs
  | case5 => simp at h
  | case6 c text _ _ _ _ ih =>
    simp only [Option.bind_eq_bind, Option.bind_eq_some_iff] at h
    obtain ⟨⟨_, _⟩, hs, h⟩ := h
    obtain ⟨-, rfl⟩ := Prod.mk.inj (Option.some.inj h)
    cases cs with
    | nil =>
      -- the brace is a character of the string, and the quote behind it ends the string
      obtain ⟨rfl, rfl⟩ := List.cons.inj htext
      exact .inr (by simpa [scanString, eq_comm] using congrArg (Option.map Prod.snd) hs)
    | cons _ cs => exact ih (List.cons.inj htext).2 hs

/-- A token that starts in front of an object's text ends there too, or at its first quote. -/
theorem scanToken_joined {token : Token}
    (h : scanToken (c :: cs ++ '{' :: '"' :: after) = some (token, rest)) :
    Leaves after rest := by
  generalize htext : c :: cs ++ '{' :: '"' :: after = text at h
  have hword : ∀ word {ys : List Char}, '{' ∉ word → text = word ++ ys →
      ∃ ds, ys = ds ++ '{' :: '"' :: after := fun word _ hword hys =>
    exists_of_append_eq word hword (htext.trans hys)
  unfold scanToken at h
  split at h
  -- words and numbers have no brace in them
  case h_7 =>
    cases h
    exact .inl (hword "null".toList (by decide) rfl)
  case h_8 =>
    cases h
    exact .inl (hword "true".toList (by decide) rfl)
  case h_9 =>
    cases h
    exact .inl (hword "false".toList (by decide) rfl)
  case h_10 text =>
    obtain ⟨⟨_, _⟩, hstring, h⟩ := Option.map_eq_some_iff.mp h
    obtain ⟨-, rfl⟩ := Prod.mk.inj h
    obtain ⟨-, rfl⟩ := List.cons.inj htext
    exact scanString_joined hstring
  case h_11 =>
    dsimp only at h
    split at h
    · cases h
      rw [← htext, dropWhile_append_of_neg (by decide)]
      exact .inl ⟨_, rfl⟩
    · cases h
  all_goals
    cases h
    exact .inl ⟨cs, (List.cons.inj htext).2.symm⟩

/-! ### The machine -/

section Machine

variable {j : Json} {state next : State} {token : Token}

theorem run?_skip (hspace : ∀ c ∈ cs, isSpace c = true) (state : State) (rest : List Char) :
    run? state (cs ++ rest) = run? state rest := by
  unfold run?
  rw [List.dropWhile_append_of_pos hspace]

theorem run?_of_scanToken_eq_none (hspace : isSpace c = false) (h : scanToken (c :: cs) = none) :
    run? state (c :: cs) = none := by
  rw [run?, dropWhile_of_apart (apart_cons hspace)]
  split
  · next hscan => cases h.symm.trans hscan
  · rfl

theorem run?_nil (state : State) : run? state [] = state.result? := by
  simp [run?, scanToken, isNumber]

/-- The machine stands before the whole value only at its start. -/
theorem step?_ne_start (h : state.step? token = some next) : next ≠ .expectValue [] := by
  rintro rfl
  cases state with
  | complete value outer =>
    simp only [State.step?] at h
    unfold State.afterValue? at h
    split at h <;> cases h
  | _ => cases token <;> cases h

/-- An object can only start where a value may start. -/
theorem run?_object_of_ne (htaken : Taken j ('{' :: cs) []) (hstate : state ≠ .expectValue []) :
    run? state ('{' :: cs) = none := by
  have hopen : ∀ frame outer, run? (.complete j (frame :: outer)) [] = none := fun frame outer =>
    run?_nil _
  cases state with
  | expectValue outer =>
    cases outer with
    | nil => contradiction
    | cons frame outer => rw [htaken.expectValue, hopen]
  | expectItem outer => rw [htaken.expectItem, hopen]
  | complete value outer =>
    rw [run?_of_scanToken (apart_cons (by decide)) rfl]
    cases outer with
    | nil => rfl
    | cons frame outer => cases frame <;> rfl
  | _ =>
    rw [run?_of_scanToken (apart_cons (by decide)) rfl]
    rfl

/-- Nothing is read if anything but spaces stands in front of an object, or anything is open. -/
theorem run?_joined (htaken : Taken j ('{' :: '"' :: after) [])
    (hafter : ∀ state, run? state after = none)
    (hstate : state = .expectValue [] → ∃ c ∈ cs, isSpace c = false) :
    run? state (cs ++ '{' :: '"' :: after) = none := by
  -- what stands in front of the object gets shorter by each token, and after the first one the
  -- machine is at its start no more
  induction hlength : cs.length using Nat.strongRecOn generalizing cs state with
  | _ length ih =>
  have hspace : ∀ c ∈ cs.takeWhile isSpace, isSpace c = true :=
    List.all_eq_true.mp List.all_takeWhile
  have hsplit := List.takeWhile_append_dropWhile (p := isSpace) (l := cs)
  rw [← hsplit, List.append_assoc, run?_skip hspace]
  cases hcs : cs.dropWhile isSpace with
  | nil =>
    refine run?_object_of_ne htaken fun hstart => ?_
    obtain ⟨c, hc, hno⟩ := hstate hstart
    rw [hcs, List.append_nil] at hsplit
    rw [hsplit] at hspace
    rw [hspace c hc] at hno
    contradiction
  | cons c ds =>
    have hno : isSpace c = false := by
      simpa [hcs] using List.head?_dropWhile_not isSpace cs
    cases hscan : scanToken (c :: ds ++ '{' :: '"' :: after) with
    | none => exact run?_of_scanToken_eq_none hno hscan
    | some scanned =>
      obtain ⟨token, rest⟩ := scanned
      have hapart : Apart isSpace (c :: ds ++ '{' :: '"' :: after) := apart_cons hno
      rw [run?_of_scanToken hapart hscan]
      cases hnext : state.step? token with
      | none => rfl
      | some next =>
        rcases scanToken_joined hscan with ⟨es, rfl⟩ | rfl
        · have hshort : es.length < length := by
            have hrest := length_scanToken hscan
            have hdropped := length_dropWhile_le isSpace cs
            simp only [hcs, List.length_append, List.length_cons] at hrest hdropped
            omega
          exact ih es.length hshort (fun hstart => absurd hstart (step?_ne_start hnext)) rfl
        · exact hafter next

/-- **An object is read only if nothing but spaces stands in front of it,** when what its first
key starts with starts no token. -/
theorem parse?_joined (hj : j.Writable) (hchars : j.chars = '{' :: '"' :: c :: after)
    (hspace : isSpace c = false) (hscan : scanToken (c :: after) = none) (cs : List Char) :
    parse? (String.ofList (cs ++ j.chars)) = if cs.all isSpace then some j else none := by
  have htaken := taken_chars j hj [] (by simp [Apart])
  rw [List.append_nil] at htaken
  rw [parse?, String.toList_ofList]
  split
  · next hall =>
    rw [run?_skip (List.all_eq_true.mp hall), htaken.expectValue, run?_nil]
    rfl
  · next hsome =>
    rw [hchars] at htaken ⊢
    refine run?_joined htaken (fun state => run?_of_scanToken_eq_none hspace hscan) fun _ => ?_
    simpa using hsome

end Machine

end ZoneKeeper.Json
