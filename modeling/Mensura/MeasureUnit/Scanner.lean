import Mathlib.Data.String.Basic
import Mensura.MeasureUnit.Parse

namespace Mensura

/-- Where a scan of a text stands, and where it has stood before, the last
place first. Places are counted in bytes. -/
structure ScanTrail where
  position : String.Pos.Raw
  earlier : List String.Pos.Raw

namespace ScanTrail

def start : ScanTrail :=
  ⟨0, []⟩

def positions (trail : ScanTrail) : List String.Pos.Raw :=
  trail.position :: trail.earlier

/-- The trail behind a character at its position. -/
def past (trail : ScanTrail) (c : Char) : ScanTrail :=
  ⟨trail.position + c, trail.positions⟩

end ScanTrail

/-- Why a scan ends without an answer. -/
inductive ScanStop where
  /-- The text is not a unit. -/
  | refused (error : UnitError)
  /-- The text was to be cut inside of a character, or behind its end. -/
  | cut
  /-- A promise was broken. -/
  | fault (fault : Fault)
deriving DecidableEq

abbrev Scan (α : Type) : Type :=
  ExceptT ScanStop (StateM ScanTrail) α

namespace Scan

variable {α β : Type}

/-- What is known without moving on. -/
def of (answer : Except ScanStop α) : Scan α :=
  fun trail => (answer, trail)

/-- An answer that only the text can be to blame for. -/
def judge (answer : Except UnitError α) : Scan α :=
  of (answer.mapError .refused)

def position : Scan String.Pos.Raw :=
  return (← get).position

/-- A scan that never goes back. -/
def Advances (x : Scan α) : Prop :=
  ∀ trail, trail.position ≤ (x trail).2.position

theorem bind_apply (x : Scan α) (f : α → Scan β) (trail : ScanTrail) :
    (x >>= f) trail = match x trail with
      | (.ok a, later) => f a later
      | (.error stop, later) => (.error stop, later) := by
  change (match x trail with | (outcome, later) => ExceptT.bindCont f outcome later) = _
  rcases x trail with ⟨_ | _, _⟩ <;> rfl

theorem bind_apply_ok {x : Scan α} {a : α} {trail later : ScanTrail} (done : x trail = (.ok a, later))
    (f : α → Scan β) : (x >>= f) trail = f a later := by
  rw [bind_apply, done]

/-- A scan in two parts has an answer if both of them have. -/
theorem bind_apply_eq_ok {x : Scan α} {f : α → Scan β} {b : β} {trail later : ScanTrail}
    (done : (x >>= f) trail = (.ok b, later)) :
    ∃ a between, x trail = (.ok a, between) ∧ f a between = (.ok b, later) := by
  rw [bind_apply] at done
  split at done
  · rename_i a between first
    exact ⟨a, between, first, done⟩
  · cases done

section Advances

theorem advances_of (answer : Except ScanStop α) : (of answer).Advances :=
  fun _ => String.Pos.Raw.le_refl

theorem advances_pure (a : α) : (pure a : Scan α).Advances :=
  fun _ => String.Pos.Raw.le_refl

theorem advances_position : position.Advances :=
  fun _ => String.Pos.Raw.le_refl

theorem Advances.bind {x : Scan α} {f : α → Scan β} (first : x.Advances) (next : ∀ a, (f a).Advances) :
    (x >>= f).Advances := by
  intro trail
  have moved := first trail
  rw [bind_apply]
  split
  · rename_i a later done
    rw [done] at moved
    exact String.Pos.Raw.le_trans moved (next a later)
  · rename_i stop later done
    rw [done] at moved
    exact moved

end Advances

end Scan

/-- A text in which byte positions are looked up. In the operator form an
exponent has to be positive. -/
structure Scanner where
  text : String
  operatorForm : Bool

namespace Scanner

variable (s : Scanner)

/-- The character that starts at a position, which may also be the end of the text. -/
def charAt (p : String.Pos.Raw) : Except ScanStop (Option Char) :=
  if p.IsValid s.text then .ok (p.get? s.text) else .error .cut

/-- The text between two positions. -/
def slice (first last : String.Pos.Raw) : Except ScanStop String :=
  if first ≤ last ∧ first.IsValid s.text ∧ last.IsValid s.text then .ok (first.extract s.text last)
  else .error .cut

theorem get?_append (before after : String) :
    before.rawEndPos.get? (before ++ after) = after.toList.head? := by
  have there := String.get?_of_valid before.toList after.toList
  rwa [String.utf8Len_toList, ← String.toList_append, String.ofList_toList] at there

/-- Where a character starts, the text is not over. -/
theorem lt_of_charAt {p : String.Pos.Raw} {c : Char} (here : s.charAt p = .ok (some c)) :
    p.byteIdx < s.text.utf8ByteSize := by
  unfold charAt at here
  split at here
  · rename_i valid
    obtain ⟨before, after, split, rfl⟩ := String.Pos.Raw.isValid_iff_exists_append.mp valid
    have first : after.toList.head? = some c := by
      rw [← get?_append before, ← split]
      exact Except.ok.inj here
    have positive : after.utf8ByteSize ≠ 0 := by
      intro none
      rw [String.utf8ByteSize_eq_zero_iff.mp none] at first
      cases first
    rw [split, String.utf8ByteSize_append, String.byteIdx_rawEndPos]
    omega
  · cases here

def peek : Scan (Option Char) := do
  Scan.of (s.charAt (← Scan.position))

def eat (c : Char) : Scan Bool := do
  if (← s.peek) = some c then
    modify fun trail => trail.past c
    return true
  else return false

def advance (inside : Char → Bool) (trail : ScanTrail) : Except ScanStop Unit × ScanTrail :=
  match _here : s.charAt trail.position with
  | .error stop => (.error stop, trail)
  | .ok none => (.ok (), trail)
  | .ok (some c) => if inside c then advance inside (trail.past c) else (.ok (), trail)
termination_by s.text.utf8ByteSize - trail.position.byteIdx
decreasing_by
  have := s.lt_of_charAt _here
  have := c.utf8Size_pos
  change _ - (trail.position.byteIdx + c.utf8Size) < _
  omega

theorem advance_eq (inside : Char → Bool) (trail : ScanTrail) :
    s.advance inside trail = match s.charAt trail.position with
      | .error stop => (.error stop, trail)
      | .ok none => (.ok (), trail)
      | .ok (some c) => if inside c then s.advance inside (trail.past c) else (.ok (), trail) := by
  rw [advance]
  split <;> rename_i here <;> rw [here]

/-- Moves behind the characters of a kind. -/
def advanceWhile (inside : Char → Bool) : Scan Unit :=
  s.advance inside

/-- Moves behind blanks, and answers whether there were any. -/
def skipSpaces : Scan Bool := do
  let first ← Scan.position
  s.advanceWhile isBlank
  return first < (← Scan.position)

/-- Moves behind the characters of a kind, and answers them. -/
def takeWhile (inside : Char → Bool) : Scan String := do
  let first ← Scan.position
  s.advanceWhile inside
  Scan.of (s.slice first (← Scan.position))

/-- Neither a factor nor the end of a product can stand here. -/
def unexpected {α : Type} : Scan α := do
  match ← s.peek with
  | some c => Scan.judge (.error (.unexpectedCharacter c (← Scan.position).byteIdx))
  | none => Scan.judge (.error (.missingFactor (← Scan.position).byteIdx))

/-- The unit of a symbol. The tables vouch for its scale. -/
def base (symbol : String) : Except ScanStop MeasureUnit :=
  if symbol = "1" then .ok .one
  else match resolveSymbol symbol.toList with
    | some (scale, dimension) => (MeasureUnit.new scale dimension).mapError .fault
    | none => .error (.refused (.unknownSymbol symbol.toList))

/-- Raises the unit of a symbol to the exponent behind the `^`. -/
def raise (symbol : String) (unit : MeasureUnit) : Scan MeasureUnit := do
  let exponent ← s.takeWhile isExponentChar
  let n ← Scan.judge (Factor.power s.operatorForm symbol.toList exponent.toList)
  Scan.judge ((unit.tryPow n).mapError .exponentOverflow)

/-- The unit of a symbol, raised if a `^` follows the symbol. -/
def raised (symbol : String) : Scan MeasureUnit := do
  let unit ← Scan.of (base symbol)
  if ← s.eat '^' then s.raise symbol unit
  else return unit

def factor : Scan MeasureUnit := do
  let symbol ← s.takeWhile isSymbolChar
  if symbol.isEmpty then s.unexpected
  else s.raised symbol

/-- Whether a product goes on, with what stands in front of its next factor taken. -/
def goesOn : Scan Bool := do
  let spaced ← s.skipSpaces
  if ← s.eat '*' then
    let _ ← s.skipSpaces
    return true
  else if spaced then
    return (← s.peek).any isSymbolChar
  else return false

/-- One round of a product: the unit with one more factor in it, or nothing at
the end of the product. -/
def round (unit : MeasureUnit) : Scan (Option MeasureUnit) := do
  if ← s.goesOn then
    let next ← s.factor
    let product ← Scan.judge ((unit.tryMul next).mapError .exponentOverflow)
    return some product
  else return none

section Forward

variable {s} {trail later : ScanTrail}

theorem advances_peek : s.peek.Advances :=
  .bind Scan.advances_position fun _ => Scan.advances_of _

theorem advances_past (c : Char) : trail.position ≤ (trail.past c).position :=
  Nat.le_add_right ..

theorem advances_eat (c : Char) : (s.eat c).Advances := by
  refine .bind advances_peek fun here => ?_
  split
  · exact .bind (fun _ => advances_past c) fun _ => Scan.advances_pure true
  · exact Scan.advances_pure false

theorem advances_advanceWhile (inside : Char → Bool) : (s.advanceWhile inside).Advances := by
  intro trail
  rw [advanceWhile]
  induction trail using advance.induct s inside with
  | case1 trail stop here =>
    rw [advance_eq, here]
    exact String.Pos.Raw.le_refl
  | case2 trail here =>
    rw [advance_eq, here]
    exact String.Pos.Raw.le_refl
  | case3 trail c here goes ih =>
    rw [advance_eq, here]
    dsimp only
    rw [if_pos goes]
    exact String.Pos.Raw.le_trans (advances_past c) ih
  | case4 trail c here ends =>
    rw [advance_eq, here]
    dsimp only
    rw [if_neg ends]
    exact String.Pos.Raw.le_refl

theorem advances_skipSpaces : s.skipSpaces.Advances :=
  .bind Scan.advances_position fun _ => .bind (advances_advanceWhile isBlank) fun _ =>
    .bind Scan.advances_position fun _ => Scan.advances_pure _

theorem advances_takeWhile (inside : Char → Bool) : (s.takeWhile inside).Advances :=
  .bind Scan.advances_position fun _ => .bind (advances_advanceWhile inside) fun _ =>
    .bind Scan.advances_position fun _ => Scan.advances_of _

theorem advances_raise (symbol : String) (unit : MeasureUnit) : (s.raise symbol unit).Advances :=
  .bind (advances_takeWhile isExponentChar) fun _ => .bind (Scan.advances_of _) fun _ => Scan.advances_of _

theorem advances_raised (symbol : String) : (s.raised symbol).Advances := by
  refine .bind (Scan.advances_of _) fun unit => .bind (advances_eat '^') fun raise => ?_
  split
  · exact advances_raise symbol unit
  · exact Scan.advances_pure unit

theorem advances_goesOn : s.goesOn.Advances := by
  refine .bind advances_skipSpaces fun spaced => .bind (advances_eat '*') fun star => ?_
  split
  · exact .bind advances_skipSpaces fun _ => Scan.advances_pure true
  split
  · exact .bind advances_peek fun _ => Scan.advances_pure _
  · exact Scan.advances_pure false

/-- Whoever takes something has gone on. -/
theorem takeWhile_forward {inside : Char → Bool} {part : String}
    (took : s.takeWhile inside trail = (.ok part, later)) (some : part.isEmpty = false) :
    trail.position < later.position ∧ later.position.byteIdx ≤ s.text.utf8ByteSize := by
  obtain ⟨first, start, here, took⟩ := Scan.bind_apply_eq_ok took
  obtain ⟨_, behind, _, took⟩ := Scan.bind_apply_eq_ok took
  obtain ⟨last, stop, there, took⟩ := Scan.bind_apply_eq_ok took
  cases here
  cases there
  obtain ⟨cut, rfl⟩ := Prod.mk.inj took
  unfold slice at cut
  split at cut
  · rename_i valid
    refine ⟨?_, valid.2.2.le_utf8ByteSize⟩
    cases Except.ok.inj cut
    by_contra stays
    have noPart : trail.position.extract s.text behind.position = "" :=
      if_pos (Nat.le_of_not_lt stays)
    rw [noPart] at some
    cases some
  · cases cut

theorem unexpected_ne_ok {α : Type} {a : α} : s.unexpected trail ≠ (.ok a, later) := by
  intro done
  obtain ⟨here, between, _, done⟩ := Scan.bind_apply_eq_ok done
  cases here <;> cases done

theorem factor_forward {unit : MeasureUnit} (took : s.factor trail = (.ok unit, later)) :
    trail.position.byteIdx < s.text.utf8ByteSize ∧ trail.position < later.position := by
  obtain ⟨symbol, behind, symbols, took⟩ := Scan.bind_apply_eq_ok took
  split at took
  · exact absurd took unexpected_ne_ok
  rename_i some
  obtain ⟨forward, within⟩ := takeWhile_forward symbols (Bool.eq_false_iff.mpr some)
  have onward := advances_raised (s := s) symbol behind
  rw [took] at onward
  have forward : trail.position.byteIdx < behind.position.byteIdx := forward
  have onward : behind.position.byteIdx ≤ later.position.byteIdx := onward
  exact ⟨by omega, show trail.position.byteIdx < later.position.byteIdx by omega⟩

end Forward

/-- A round that is not the last one takes at least one character. -/
theorem round_forward {unit product : MeasureUnit} {trail later : ScanTrail}
    (went : s.round unit trail = (.ok (some product), later)) :
    trail.position.byteIdx < s.text.utf8ByteSize ∧ trail.position < later.position := by
  obtain ⟨on, between, asked, went⟩ := Scan.bind_apply_eq_ok went
  have onward := advances_goesOn (s := s) trail
  rw [asked] at onward
  split at went
  · obtain ⟨next, behind, took, went⟩ := Scan.bind_apply_eq_ok went
    obtain ⟨_, _, judged, went⟩ := Scan.bind_apply_eq_ok went
    obtain ⟨inside, forward⟩ := factor_forward took
    cases (Prod.mk.inj judged).2
    cases (Prod.mk.inj went).2
    have onward : trail.position.byteIdx ≤ between.position.byteIdx := onward
    have forward : between.position.byteIdx < later.position.byteIdx := forward
    exact ⟨by omega, show trail.position.byteIdx < later.position.byteIdx by omega⟩
  · cases went

/-- Rounds of a product up to its end. -/
def rounds (unit : MeasureUnit) (trail : ScanTrail) : Except ScanStop MeasureUnit × ScanTrail :=
  match _went : s.round unit trail with
  | (.error stop, later) => (.error stop, later)
  | (.ok none, later) => (.ok unit, later)
  | (.ok (some product), later) => rounds product later
termination_by s.text.utf8ByteSize - trail.position.byteIdx
decreasing_by
  obtain ⟨inside, forward⟩ := s.round_forward _went
  have : trail.position.byteIdx < later.position.byteIdx := forward
  omega

def product : Scan MeasureUnit := do
  let _ ← s.skipSpaces
  let first ← s.factor
  s.rounds first

/-- The product in parentheses behind a `/`. -/
def denominator : Scan MeasureUnit := do
  let _ ← s.skipSpaces
  if ← s.eat '(' then
    let unit ← s.product
    let _ ← s.skipSpaces
    if ← s.eat ')' then return unit
    else s.unexpected
  else Scan.judge (.error (.expectedParenthesis (← Scan.position).byteIdx))

def fraction : Scan MeasureUnit := do
  let numerator ← s.product
  if ← s.eat '/' then
    let denominator ← s.denominator
    Scan.judge ((numerator.tryDiv denominator).mapError .exponentOverflow)
  else return numerator

/-- The unit of the whole text. -/
def unit : Scan MeasureUnit := do
  let unit ← s.fraction
  let _ ← s.skipSpaces
  let last ← Scan.position
  if last < s.text.rawEndPos then Scan.judge (.error (.trailingInput last.byteIdx))
  else Scan.judge (MeasureUnit.checked unit.scale unit.dimension)

end Scanner

/-- The text that the positions in an error count in. -/
def trimmedText (input : String) : String :=
  String.ofList (trimBlanks input.toList)

/-- Reads a unit byte by byte, with the trail that the reading leaves. -/
def scanUnit (input : String) : Except ScanStop MeasureUnit × ScanTrail :=
  let text := trimmedText input
  if text.isEmpty then (.error (.refused .empty), .start)
  else (Scanner.mk text (text.toList.any fun c => c == '*' || c == '/')).unit .start

end Mensura
