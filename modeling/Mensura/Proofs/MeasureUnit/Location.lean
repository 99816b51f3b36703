import Mathlib.Data.String.Basic
import Mensura.Proofs.MeasureUnit.Stages

namespace Mensura

/-- A position of a text, with what the text has in front of it and from there on. -/
structure PartedAt (text : String) (p : String.Pos.Raw) (before after : List Char) : Prop where
  split : text.toList = before ++ after
  bytes : p = (String.ofList before).rawEndPos

theorem byteLength_eq (text : List Char) : byteLength text = (String.ofList text).utf8ByteSize := by
  have sum (size : Nat) : text.foldl (fun size c => size + c.utf8Size) size = size + String.utf8Len text := by
    induction text generalizing size with
    | nil => rfl
    | cons c tail ih => rw [List.foldl_cons, ih, String.utf8Len_cons, Nat.add_right_comm, Nat.add_assoc]
  rw [byteLength, sum, String.utf8ByteSize_ofList, Nat.zero_add]

theorem byteLength_append (text rest : List Char) :
    byteLength (text ++ rest) = byteLength text + byteLength rest := by
  rw [byteLength_eq, byteLength_eq, byteLength_eq, String.ofList_append, String.utf8ByteSize_append]

/-- The bytes in front of a place that has been reached. -/
theorem byteLength_sub (before after : List Char) :
    byteLength (before ++ after) - byteLength after = byteLength before := by
  rw [byteLength_append, Nat.add_sub_cancel]

theorem byteLength_pos {text : List Char} (some : text ≠ []) : 0 < byteLength text := by
  obtain ⟨c, tail, rfl⟩ := List.exists_cons_of_ne_nil some
  have whole := byteLength_append [c] tail
  have first : byteLength [c] = c.utf8Size := Nat.zero_add _
  have positive := c.utf8Size_pos
  rw [List.singleton_append] at whole
  omega

namespace PartedAt

variable {text : String} {p : String.Pos.Raw} {before after run rest : List Char} {c : Char}

theorem ofList (before after : List Char) :
    PartedAt (String.ofList (before ++ after)) ⟨byteLength before⟩ before after :=
  ⟨String.toList_ofList, String.Pos.Raw.ext (byteLength_eq before)⟩

theorem byteIdx (parted : PartedAt text p before after) : p.byteIdx = byteLength before := by
  rw [parted.bytes, byteLength_eq, String.byteIdx_rawEndPos]

theorem byteIdx_add (parted : PartedAt text p before after) :
    p.byteIdx + byteLength after = text.utf8ByteSize := by
  rw [parted.byteIdx, ← byteLength_append, ← parted.split, byteLength_eq, String.ofList_toList]

/-- From the left, a position counts the bytes that are not left behind it. -/
theorem byteIdx_sub (parted : PartedAt text p before after) :
    p.byteIdx = byteLength text.toList - byteLength after := by
  have whole := parted.byteIdx_add
  rw [byteLength_eq text.toList, String.ofList_toList]
  omega

theorem le (parted : PartedAt text p before after) : p.byteIdx ≤ text.utf8ByteSize := by
  have whole := parted.byteIdx_add
  omega

theorem lt (parted : PartedAt text p before (c :: after)) : p.byteIdx < text.utf8ByteSize := by
  have whole := parted.byteIdx_add
  have positive := byteLength_pos (List.cons_ne_nil c after)
  omega

theorem lt_iff (parted : PartedAt text p before after) : p < text.rawEndPos ↔ after ≠ [] := by
  cases after with
  | nil =>
    have whole := parted.byteIdx_add
    have nothing : byteLength [] = 0 := rfl
    rw [String.Pos.Raw.lt_iff, String.byteIdx_rawEndPos]
    exact ⟨by omega, fun some => absurd rfl some⟩
  | cons c after => exact ⟨fun _ => List.cons_ne_nil c after, fun _ => parted.lt⟩

theorem le_append {q : String.Pos.Raw} (first : PartedAt text p before after)
    (last : PartedAt text q (before ++ run) rest) : p ≤ q := by
  have whole := byteLength_append before run
  rw [String.Pos.Raw.le_iff, first.byteIdx, last.byteIdx]
  omega

theorem lt_append_iff {q : String.Pos.Raw} (first : PartedAt text p before after)
    (last : PartedAt text q (before ++ run) rest) : p < q ↔ run ≠ [] := by
  have whole := byteLength_append before run
  rw [String.Pos.Raw.lt_iff, first.byteIdx, last.byteIdx]
  constructor
  · rintro forward rfl
    rw [List.append_nil] at forward
    omega
  · intro some
    have positive := byteLength_pos some
    omega

theorem valid (parted : PartedAt text p before after) : p.IsValid text := by
  refine String.Pos.Raw.isValid_iff_exists_append.mpr
    ⟨String.ofList before, String.ofList after, ?_, parted.bytes⟩
  rw [← String.ofList_append, ← parted.split, String.ofList_toList]

theorem exists_of_valid (valid : p.IsValid text) : ∃ before after, PartedAt text p before after := by
  obtain ⟨before, after, rfl, rfl⟩ := String.Pos.Raw.isValid_iff_exists_append.mp valid
  refine ⟨before.toList, after.toList, String.toList_append, ?_⟩
  rw [String.ofList_toList]

theorem get? (parted : PartedAt text p before after) : p.get? text = after.head? := by
  have there := String.get?_of_valid before after
  rwa [← parted.split, String.ofList_toList, ← String.rawEndPos_ofList, ← parted.bytes] at there

theorem extract {q : String.Pos.Raw} (first : PartedAt text p before (run ++ rest))
    (last : PartedAt text q (before ++ run) rest) : p.extract text q = String.ofList run := by
  have between := String.extract_of_valid before run rest
  rwa [← last.split, String.ofList_toList, ← String.rawEndPos_ofList, ← first.bytes,
    ← String.utf8Len_append, ← String.rawEndPos_ofList, ← last.bytes] at between

end PartedAt

/-- What an error says of the text that it was found in. Positions are named by
the errors for what stands, or does not stand, at a place of the text. -/
def UnitError.LocatedIn (text : String) : UnitError → Prop
  | .expectedParenthesis p =>
    p ≤ text.utf8ByteSize ∧ ∃ before blanks after,
      PartedAt text ⟨p⟩ (before ++ '/' :: blanks) after ∧ Blanks blanks ∧ after.head? ≠ some '('
  | .unexpectedCharacter c p =>
    p < text.utf8ByteSize ∧ ∃ before after, PartedAt text ⟨p⟩ before (c :: after)
  | .missingFactor p => p = text.utf8ByteSize
  | .trailingInput p =>
    p < text.utf8ByteSize ∧ ∃ before c after, PartedAt text ⟨p⟩ before (c :: after) ∧ isBlank c = false
  | .empty | .unknownSymbol _ | .invalidExponent _ _ | .zeroExponent _ | .negativeExponent _ _
  | .exponentOverflow _ | .invalidScale _ => True

section Location

variable {operatorForm : Bool} {text place rest : List Char} {error : UnitError}

theorem located_unexpectedAt (suffix : place <:+ text) :
    (unexpectedAt text place).LocatedIn (String.ofList text) := by
  obtain ⟨before, rfl⟩ := suffix
  have parted := PartedAt.ofList before place
  cases place with
  | nil => exact byteLength_eq _
  | cons c tail =>
    rw [unexpectedAt, byteLength_sub]
    exact ⟨parted.lt, before, tail, parted⟩

theorem Factor.located_base {factor : Factor} (failed : factor.base = .error error) (text : String) :
    error.LocatedIn text := by
  unfold Factor.base at failed
  split at failed
  · cases failed
  split at failed <;> cases failed
  exact True.intro

theorem Factor.located_power {symbol exponent : List Char}
    (failed : Factor.power operatorForm symbol exponent = .error error) (text : String) :
    error.LocatedIn text := by
  unfold Factor.power at failed
  split at failed
  · cases failed
    exact True.intro
  split at failed
  · cases failed
    exact True.intro
  split at failed <;> cases failed
  exact True.intro

theorem located_overflow {made : Except ExponentOverflow MeasureUnit}
    (failed : made.mapError .exponentOverflow = .error error) (text : String) : error.LocatedIn text := by
  obtain ⟨overflow, _, rfl⟩ := mapError_eq_error_iff.mp failed
  exact True.intro

/-- The errors of a single factor are about its symbol and its exponent, not about a place. -/
theorem Factor.located {factor : Factor} (failed : factor.eval operatorForm = .error error)
    (text : String) : error.LocatedIn text := by
  obtain ⟨symbol, exponent⟩ := factor
  rcases bind_eq_error_iff.mp failed with base | ⟨unit, _, failed⟩
  · exact located_base base text
  cases exponent with
  | none => cases failed
  | some digits =>
    rcases bind_eq_error_iff.mp failed with power | ⟨n, _, raised⟩
    · exact located_power power text
    · exact located_overflow raised text

theorem located_evalFactors {start : MeasureUnit} {factors : List Factor}
    (failed : evalFactors operatorForm start factors = .error error) (text : String) :
    error.LocatedIn text := by
  induction factors generalizing start with
  | nil => cases failed
  | cons factor later ih =>
    rcases bind_eq_error_iff.mp failed with first | ⟨unit, _, failed⟩
    · exact factor.located first text
    rcases bind_eq_error_iff.mp failed with joined | ⟨product, _, failed⟩
    · exact located_overflow joined text
    · exact ih failed

theorem located_evalProduct {factors : List Factor}
    (failed : evalProduct operatorForm factors = .error error) (text : String) :
    error.LocatedIn text := by
  cases factors with
  | nil => cases failed
  | cons first later =>
    rcases bind_eq_error_iff.mp failed with alone | ⟨unit, _, failed⟩
    · exact first.located alone text
    · exact located_evalFactors failed text

/-- A factor is missing at a place of the text that was to be read. -/
theorem missing_suffix (missing : (readFactors text).ending = .error place) : place <:+ text := by
  induction text using readFactors.induct with
  | case1 text unread =>
    rw [readFactors_missing unread] at missing
    cases missing
    exact List.suffix_refl _
  | case2 text factor behind first last =>
    rw [readFactors_last first last] at missing
    cases missing
  | case3 text factor behind first next found ih =>
    rw [readFactors_more first found] at missing
    obtain ⟨body, _, split⟩ := written_of_readFactor first
    obtain ⟨between, _, splitBehind⟩ := separator_of_nextFactor? found
    rw [split, splitBehind]
    exact (ih missing).trans ((List.suffix_append between next).trans (List.suffix_append body _))

theorem Product.located (suffix : place <:+ text)
    (failed : (readProduct place).eval operatorForm text = .error error) :
    error.LocatedIn (String.ofList text) := by
  rw [Product.eval_eq] at failed
  rcases bind_eq_error_iff.mp failed with factors | ⟨unit, _, failed⟩
  · exact located_evalProduct factors _
  rcases bind_eq_error_iff.mp failed with ending | ⟨rest, _, failed⟩
  · obtain ⟨missing, ended, rfl⟩ := mapError_eq_error_iff.mp ending
    exact located_unexpectedAt ((missing_suffix ended).trans ((List.dropWhile_suffix _).trans suffix))
  · cases failed

theorem located_trailing (suffix : rest <:+ text) (stop : skipBlanks rest = rest) (some : rest ≠ []) :
    (UnitError.trailingInput (byteLength text - byteLength rest)).LocatedIn (String.ofList text) := by
  obtain ⟨before, rfl⟩ := suffix
  obtain ⟨c, tail, rfl⟩ := List.exists_cons_of_ne_nil some
  have parted := PartedAt.ofList before (c :: tail)
  rw [byteLength_sub]
  exact ⟨parted.lt, before, c, tail, parted, skipBlanks_head (c :: tail) c (by rw [stop]; rfl)⟩

theorem located_expectedParenthesis {tail : List Char} (suffix : '/' :: tail <:+ text)
    (closed : ∀ inner, skipBlanks tail ≠ '(' :: inner) :
    (UnitError.expectedParenthesis (byteLength text - byteLength (skipBlanks tail))).LocatedIn
      (String.ofList text) := by
  obtain ⟨before, rfl⟩ := suffix
  obtain ⟨blanks, white, split⟩ := skipBlanks_split tail
  have whole : before ++ '/' :: tail = before ++ '/' :: blanks ++ skipBlanks tail := by
    rw [List.append_assoc, List.cons_append, ← split]
  have parted := PartedAt.ofList (before ++ '/' :: blanks) (skipBlanks tail)
  rw [whole, byteLength_sub]
  refine ⟨parted.le, before, blanks, _, parted, white, ?_⟩
  intro opened
  obtain ⟨inner, again⟩ := List.head?_eq_some_iff.mp opened
  exact closed inner again

theorem product_suffix {unit : MeasureUnit}
    (done : (readProduct place).eval operatorForm text = .ok (unit, rest)) : rest <:+ place := by
  obtain ⟨_, before, body, w, _, _, _, split⟩ := product_of_eval done
  rw [split]
  exact (List.suffix_append (body ++ w) rest).trans (List.suffix_append before _)

theorem opened_suffix {inner : List Char} (opened : skipBlanks place = '(' :: inner) : inner <:+ place := by
  have skipped : '(' :: inner <:+ place := opened ▸ List.dropWhile_suffix isBlank
  exact (List.suffix_cons '(' inner).trans skipped

theorem denominatorAt_suffix {unit : MeasureUnit}
    (done : denominatorAt operatorForm text place = .ok (unit, rest)) : rest <:+ place := by
  unfold denominatorAt at done
  split at done
  · rename_i inner opened
    obtain ⟨⟨_, behind⟩, below, done⟩ := bind_eq_ok_iff.mp done
    dsimp only at done
    split at done
    · rename_i tail
      cases done
      exact (List.suffix_cons ')' rest).trans ((product_suffix below).trans (opened_suffix opened))
    · cases done
  · cases done

theorem fractionAt_suffix {unit : MeasureUnit}
    (done : fractionAt operatorForm text place = .ok (unit, rest)) : rest <:+ place := by
  obtain ⟨⟨numerator, behind⟩, above, done⟩ := bind_eq_ok_iff.mp done
  have suffix := product_suffix above
  dsimp only at done
  split at done
  · rename_i tail
    obtain ⟨⟨_, _⟩, below, done⟩ := bind_eq_ok_iff.mp done
    obtain ⟨_, _, done⟩ := bind_eq_ok_iff.mp done
    cases done
    exact (denominatorAt_suffix below).trans ((List.suffix_cons '/' tail).trans suffix)
  · cases done
    exact suffix

theorem located_denominatorAt (suffix : '/' :: place <:+ text)
    (failed : denominatorAt operatorForm text place = .error error) :
    error.LocatedIn (String.ofList text) := by
  unfold denominatorAt at failed
  split at failed
  · rename_i inner opened
    have within : inner <:+ text := (opened_suffix opened).trans ((List.suffix_cons '/' place).trans suffix)
    rcases bind_eq_error_iff.mp failed with below | ⟨⟨_, behind⟩, below, failed⟩
    · exact Product.located within below
    dsimp only at failed
    split at failed
    · cases failed
    · cases failed
      exact located_unexpectedAt ((product_suffix below).trans within)
  · rename_i closed
    cases failed
    exact located_expectedParenthesis suffix closed

theorem located_fractionAt (suffix : place <:+ text)
    (failed : fractionAt operatorForm text place = .error error) :
    error.LocatedIn (String.ofList text) := by
  rcases bind_eq_error_iff.mp failed with above | ⟨⟨numerator, behind⟩, above, failed⟩
  · exact Product.located suffix above
  have suffix := (product_suffix above).trans suffix
  dsimp only at failed
  split at failed
  · rcases bind_eq_error_iff.mp failed with below | ⟨_, _, failed⟩
    · exact located_denominatorAt suffix below
    rcases bind_eq_error_iff.mp failed with quotient | ⟨_, _, failed⟩
    · exact located_overflow quotient _
    · cases failed
  · cases failed

theorem located_parseTrimmed (failed : parseTrimmed text = .error error) :
    error.LocatedIn (String.ofList text) := by
  rw [parseTrimmed_eq] at failed
  rcases bind_eq_error_iff.mp failed with stopped | ⟨⟨unit, rest⟩, read, failed⟩
  · exact located_fractionAt (List.suffix_refl text) stopped
  have suffix : skipBlanks rest <:+ text := (List.dropWhile_suffix isBlank).trans (fractionAt_suffix read)
  dsimp only at failed
  split at failed
  · obtain ⟨scale, _, rfl⟩ := mapError_eq_error_iff.mp failed
    exact True.intro
  · rename_i some
    cases failed
    exact located_trailing suffix (skipBlanks_skipBlanks rest) (by simpa using some)

end Location

theorem located_parseUnit {input : String} {error : UnitError} (failed : parseUnit input = .error error) :
    error.LocatedIn (String.ofList (trimBlanks input.toList)) := by
  unfold parseUnit at failed
  dsimp only at failed
  split at failed
  · cases failed
    exact True.intro
  · exact located_parseTrimmed failed

end Mensura
