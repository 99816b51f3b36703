import Mensura.MeasureUnit.Scanner
import Mensura.Proofs.MeasureUnit.Location
import Mensura.Proofs.MeasureUnit.Scale

namespace Mensura

/-- A trail that keeps between the characters of a text. -/
def ScanTrail.Inside (text : String) (trail : ScanTrail) : Prop :=
  ∀ p ∈ trail.positions, p.IsValid text

/-- A trail that has come to where `rest` is left of the text. -/
structure ScanTrail.At (text : String) (rest : List Char) (trail : ScanTrail) : Prop where
  here : ∃ before, PartedAt text trail.position before rest
  inside : trail.Inside text

section At

variable {text : String} {trail : ScanTrail} {before rest tail : List Char} {c : Char}

theorem ScanTrail.at_start (text : String) : ScanTrail.start.At text text.toList where
  here := ⟨[], rfl, rfl⟩
  inside := by
    intro p member
    cases List.mem_singleton.mp member
    exact String.Pos.Raw.isValid_zero

theorem PartedAt.past {p : String.Pos.Raw} (parted : PartedAt text p before (c :: tail)) :
    PartedAt text (p + c) (before ++ [c]) tail where
  split := by rw [parted.split, List.append_assoc, List.singleton_append]
  bytes := by
    apply String.Pos.Raw.ext
    rw [String.ofList_append, String.byteIdx_rawEndPos, String.utf8ByteSize_append, ← byteLength_eq [c],
      parted.bytes]
    exact congrArg (_ + ·) (Nat.zero_add _).symm

theorem ScanTrail.Inside.past (inside : trail.Inside text)
    (parted : PartedAt text trail.position before (c :: tail)) : (trail.past c).Inside text := by
  intro p member
  rcases List.mem_cons.mp member with rfl | old
  · exact parted.past.valid
  · exact inside p old

theorem ScanTrail.At.past (there : trail.At text (c :: tail)) : (trail.past c).At text tail := by
  obtain ⟨⟨before, parted⟩, inside⟩ := there
  exact ⟨⟨_, parted.past⟩, inside.past parted⟩

end At

namespace Scan

variable {α β : Type} {text : String} {place rest : List Char}

/-- What a scan may come to, if its text is read as the outcome says: it answers
where the rest is left, or it refuses the text. It stops for no other reason, and
its trail keeps between the characters. -/
inductive Agrees (text : String) :
    Except ScanStop α × ScanTrail → Except UnitError (α × List Char) → Prop
  | ok {a : α} {rest : List Char} {later : ScanTrail} : later.At text rest →
      Agrees text (.ok a, later) (.ok (a, rest))
  | error {error : UnitError} {later : ScanTrail} : later.Inside text →
      Agrees text (.error (.refused error), later) (.error error)

/-- A scan that agrees with an outcome wherever `place` is left of the text. -/
def Reads (text : String) (x : Scan α) (place : List Char)
    (outcome : Except UnitError (α × List Char)) : Prop :=
  ∀ trail : ScanTrail, trail.At text place → Agrees text (x trail) outcome

theorem position_apply (trail : ScanTrail) : position trail = (.ok trail.position, trail) :=
  rfl

theorem reads_pure (a : α) : (pure a : Scan α).Reads text place (.ok (a, place)) :=
  fun _ there => .ok there

theorem reads_judge (answer : Except UnitError α) :
    (judge answer).Reads text place (do return (← answer, place)) := by
  cases answer with
  | ok a => exact fun _ there => .ok there
  | error error => exact fun _ there => .error there.inside

/-- Two scans one after the other read what two readers one after the other do. -/
theorem Reads.bind {x : Scan α} {f : α → Scan β} {outcome : Except UnitError (α × List Char)}
    {g : α × List Char → Except UnitError (β × List Char)} (first : x.Reads text place outcome)
    (next : ∀ a rest, outcome = .ok (a, rest) → (f a).Reads text rest (g (a, rest))) :
    (x >>= f).Reads text place (outcome >>= g) := by
  intro trail there
  have agrees := first trail there
  rw [bind_apply]
  generalize x trail = result at agrees
  cases agrees with
  | ok behind => exact next _ _ rfl _ behind
  | error inside => exact .error inside

theorem Reads.then {x : Scan α} {f : α → Scan β} {a : α} {outcome : Except UnitError (β × List Char)}
    (first : x.Reads text place (.ok (a, rest))) (next : (f a).Reads text rest outcome) :
    (x >>= f).Reads text place outcome := by
  refine first.bind (g := fun _ => outcome) fun b left same => ?_
  cases same
  exact next

theorem Reads.judge {f : α → Scan β} {g : α → Except UnitError (β × List Char)}
    (answer : Except UnitError α) (next : ∀ a, (f a).Reads text place (g a)) :
    (judge answer >>= f).Reads text place (answer >>= g) := by
  cases answer with
  | ok a => exact Reads.then (fun _ there => .ok there) (next a)
  | error error => exact fun _ there => .error there.inside

/-- A scan whose first part has a known answer and leaves a known trail. -/
theorem Reads.of_apply {x : Scan α} {outcome : Except UnitError (α × List Char)}
    (agrees : ∀ (trail : ScanTrail) (before : List Char), PartedAt text trail.position before place →
      trail.Inside text → Agrees text (x trail) outcome) : x.Reads text place outcome := by
  intro trail there
  obtain ⟨before, parted⟩ := there.here
  exact agrees trail before parted there.inside

end Scan

namespace Scanner

variable {s : Scanner} {place rest : List Char}

theorem charAt_parted {p : String.Pos.Raw} {before : List Char} (parted : PartedAt s.text p before place) :
    s.charAt p = .ok place.head? := by
  rw [charAt, if_pos parted.valid, parted.get?]

theorem reads_peek : s.peek.Reads s.text place (.ok (place.head?, place)) := by
  intro trail there
  obtain ⟨before, parted⟩ := there.here
  change Scan.Agrees s.text (s.charAt trail.position, trail) _
  rw [charAt_parted parted]
  exact .ok there

theorem reads_eat (c : Char) (tail : List Char) :
    (s.eat c).Reads s.text (c :: tail) (.ok (true, tail)) := by
  refine reads_peek.then ?_
  rw [if_pos (List.head?_cons ..)]
  exact fun trail there => .ok there.past

theorem reads_eat_other {c : Char} (other : place.head? ≠ some c) :
    (s.eat c).Reads s.text place (.ok (false, place)) := by
  refine reads_peek.then ?_
  rw [if_neg other]
  exact Scan.reads_pure false

theorem advanceWhile_parted (inside : Char → Bool) {trail : ScanTrail} {before : List Char}
    (parted : PartedAt s.text trail.position before place) (valid : trail.Inside s.text) :
    ∃ later, s.advanceWhile inside trail = (.ok (), later) ∧ later.Inside s.text ∧
      PartedAt s.text later.position (before ++ place.takeWhile inside) (place.dropWhile inside) := by
  induction place generalizing trail before with
  | nil =>
    rw [advanceWhile, advance_eq, charAt_parted parted]
    refine ⟨trail, rfl, valid, ?_⟩
    rwa [List.takeWhile_nil, List.append_nil]
  | cons c tail ih =>
    rw [advanceWhile, advance_eq, charAt_parted parted]
    by_cases goes : inside c = true
    · obtain ⟨later, done, kept, behind⟩ := ih parted.past (valid.past parted)
      refine ⟨later, (if_pos goes).trans done, kept, ?_⟩
      rwa [List.takeWhile_cons_of_pos goes, List.dropWhile_cons_of_pos goes, List.append_cons]
    · refine ⟨trail, if_neg goes, valid, ?_⟩
      rwa [List.takeWhile_cons_of_neg goes, List.dropWhile_cons_of_neg goes, List.append_nil]

theorem reads_skipSpaces :
    s.skipSpaces.Reads s.text place
      (.ok (decide ((skipBlanks place).length < place.length), skipBlanks place)) := by
  refine Scan.Reads.of_apply fun trail before parted inside => ?_
  obtain ⟨later, done, kept, behind⟩ := advanceWhile_parted isBlank parted inside
  have skipped : s.skipSpaces trail = (.ok (decide (trail.position < later.position)), later) := by
    rw [skipSpaces, Scan.bind_apply_ok (Scan.position_apply trail), Scan.bind_apply_ok done]
    rfl
  have moved : trail.position < later.position ↔ (skipBlanks place).length < place.length := by
    have split := congrArg List.length (List.takeWhile_append_dropWhile (p := isBlank) (l := place))
    rw [List.length_append] at split
    rw [parted.lt_append_iff behind, ← List.length_pos_iff, skipBlanks]
    omega
  rw [skipped, decide_eq_decide.mpr moved]
  exact .ok ⟨⟨_, behind⟩, kept⟩

theorem reads_takeWhile (inside : Char → Bool) :
    (s.takeWhile inside).Reads s.text place
      (.ok (String.ofList (place.takeWhile inside), place.dropWhile inside)) := by
  refine Scan.Reads.of_apply fun trail before parted valid => ?_
  obtain ⟨later, done, kept, behind⟩ := advanceWhile_parted inside parted valid
  -- Both ends of the part stand between characters, so the text may be cut there.
  rw [← List.takeWhile_append_dropWhile (p := inside) (l := place)] at parted
  have cut : s.slice trail.position later.position = .ok (String.ofList (place.takeWhile inside)) := by
    rw [slice, if_pos ⟨parted.le_append behind, parted.valid, behind.valid⟩, parted.extract behind]
  have taken : s.takeWhile inside trail = (.ok (String.ofList (place.takeWhile inside)), later) := by
    rw [takeWhile, Scan.bind_apply_ok (Scan.position_apply trail), Scan.bind_apply_ok done,
      Scan.bind_apply_ok (Scan.position_apply later), cut]
    rfl
  rw [taken]
  exact .ok ⟨⟨_, behind⟩, kept⟩

theorem reads_unexpected {α : Type} :
    (s.unexpected : Scan α).Reads s.text place (.error (unexpectedAt s.text.toList place)) := by
  refine reads_peek.then ?_
  refine Scan.Reads.of_apply fun trail before parted valid => ?_
  have position := parted.byteIdx_sub
  cases place with
  | nil =>
    have refused : unexpectedAt s.text.toList [] = .missingFactor trail.position.byteIdx :=
      congrArg UnitError.missingFactor position.symm
    rw [refused]
    exact .error valid
  | cons c tail =>
    rw [unexpectedAt, ← position]
    exact .error valid

theorem base_ofList (symbol : List Char) (exponent : Option (List Char)) :
    base (String.ofList symbol) = (Factor.base ⟨symbol, exponent⟩).mapError .refused := by
  have bare : String.ofList symbol = String.ofList ['1'] ↔ symbol = ['1'] := String.ofList_inj
  change String.ofList symbol = "1" ↔ _ at bare
  simp only [base, Factor.base, bare, String.toList_ofList]
  split
  · rfl
  cases found : resolveSymbol symbol with
  | none => rfl
  | some resolved =>
    obtain ⟨scale, dimension⟩ := resolved
    dsimp only
    rw [MeasureUnit.new_eq_ok_iff.mpr ⟨resolveSymbol_scale found, rfl⟩]
    rfl

theorem reads_raise (symbol : List Char) (unit : MeasureUnit) :
    (s.raise (String.ofList symbol) unit).Reads s.text place (do
      let n ← Factor.power s.operatorForm symbol (place.takeWhile isExponentChar)
      let raised ← (unit.tryPow n).mapError .exponentOverflow
      return (raised, place.dropWhile isExponentChar)) := by
  refine (reads_takeWhile isExponentChar).then ?_
  rw [String.toList_ofList, String.toList_ofList]
  exact .judge _ fun n => Scan.reads_judge _

/-- A symbol that is looked up, and what is read behind it. -/
theorem reads_raised {symbol : List Char} {outcome : MeasureUnit → Except UnitError (MeasureUnit × List Char)}
    (exponent : Option (List Char))
    (next : ∀ unit, (do if ← s.eat '^' then s.raise (String.ofList symbol) unit else return unit).Reads
      s.text place (outcome unit)) :
    (s.raised (String.ofList symbol)).Reads s.text place
      (Factor.base ⟨symbol, exponent⟩ >>= outcome) := by
  rw [raised, base_ofList symbol exponent]
  exact .judge _ next

theorem reads_raised_power (symbol rest : List Char) :
    (s.raised (String.ofList symbol)).Reads s.text ('^' :: rest) (do
      let unit ← Factor.eval s.operatorForm ⟨symbol, some (rest.takeWhile isExponentChar)⟩
      return (unit, rest.dropWhile isExponentChar)) := by
  simp only [Factor.eval, bind_assoc]
  refine reads_raised _ fun unit => (reads_eat '^' rest).then ?_
  rw [if_pos rfl]
  exact reads_raise symbol unit

theorem reads_raised_plain (symbol : List Char) (plain : place.head? ≠ some '^') :
    (s.raised (String.ofList symbol)).Reads s.text place (do
      let unit ← Factor.eval s.operatorForm ⟨symbol, none⟩
      return (unit, place)) := by
  simp only [Factor.eval, bind_assoc]
  refine reads_raised none fun unit => (reads_eat_other plain).then ?_
  exact Scan.reads_pure unit

theorem reads_factor : s.factor.Reads s.text place (factorAt s.operatorForm s.text.toList place) := by
  refine (reads_takeWhile isSymbolChar).then ?_
  have split := List.takeWhile_append_dropWhile (p := isSymbolChar) (l := place)
  by_cases none : place.takeWhile isSymbolChar = []
  · rw [none, List.nil_append] at split
    rw [factorAt_missing (readFactor_none none), none, split]
    exact reads_unexpected
  have symbol : ¬ (String.ofList (place.takeWhile isSymbolChar)).isEmpty = true :=
    fun empty => none (String.ofList_inj.mp (String.isEmpty_iff.mp empty))
  rw [if_neg symbol]
  by_cases raise : (place.dropWhile isSymbolChar).head? = some '^'
  · obtain ⟨tail, after⟩ := List.head?_eq_some_iff.mp raise
    rw [factorAt_read (readFactor_power none after), after]
    exact reads_raised_power _ tail
  · rw [factorAt_read (readFactor_plain none raise)]
    exact reads_raised_plain _ raise

theorem reads_goesOn :
    s.goesOn.Reads s.text place (.ok (match nextFactor? place with
      | some next => (true, next)
      | none => (false, skipBlanks place))) := by
  refine reads_skipSpaces.then ?_
  by_cases star : (skipBlanks place).head? = some '*'
  · obtain ⟨tail, after⟩ := List.head?_eq_some_iff.mp star
    rw [nextFactor?_star after, after]
    refine (reads_eat '*' tail).then ?_
    rw [if_pos rfl]
    exact reads_skipSpaces.then (Scan.reads_pure true)
  refine (reads_eat_other star).then ?_
  rw [if_neg Bool.false_ne_true, nextFactor?_plain star]
  by_cases spaced : (skipBlanks place).length < place.length
  · rw [if_pos (decide_eq_true spaced), decide_eq_true spaced, Bool.true_and]
    refine reads_peek.then ?_
    cases (skipBlanks place).head?.any isSymbolChar <;> exact Scan.reads_pure _
  · rw [if_neg (by simpa using spaced), decide_eq_false spaced, Bool.false_and]
    exact Scan.reads_pure false

theorem reads_round (unit : MeasureUnit) :
    (s.round unit).Reads s.text place (roundAt s.operatorForm s.text.toList unit place) := by
  refine reads_goesOn.then ?_
  rw [roundAt]
  cases nextFactor? place with
  | none => exact Scan.reads_pure none
  | some next =>
    refine reads_factor.bind fun factor rest _ => .judge _ fun product => ?_
    exact Scan.reads_pure (some product)

theorem rounds_eq (s : Scanner) (unit : MeasureUnit) :
    s.rounds unit = (s.round unit >>= fun
      | none => pure unit
      | some product => s.rounds product : Scan MeasureUnit) := by
  funext trail
  rw [rounds, Scan.bind_apply]
  split <;> rename_i went <;> rw [went]
  rfl

theorem reads_rounds (unit : MeasureUnit) :
    Scan.Reads s.text (s.rounds unit) place (productFrom s.operatorForm s.text.toList unit place) := by
  -- Induction on what is left of the text: a round that goes on leaves less of it.
  induction size : place.length using Nat.strongRecOn generalizing unit place with
  | _ n ih =>
    rw [rounds_eq, productFrom_eq]
    refine (reads_round unit).bind fun next rest went => ?_
    cases next with
    | none => exact Scan.reads_pure unit
    | some product => exact ih rest.length (size ▸ roundAt_shorter went) product rfl

theorem reads_product :
    s.product.Reads s.text place ((readProduct place).eval s.operatorForm s.text.toList) := by
  rw [readProduct_eval]
  exact reads_skipSpaces.then (reads_factor.bind fun unit rest _ => reads_rounds unit)

theorem reads_denominator :
    s.denominator.Reads s.text place (denominatorAt s.operatorForm s.text.toList place) := by
  refine reads_skipSpaces.then ?_
  unfold denominatorAt
  split
  · rename_i inner opened
    rw [opened]
    refine (reads_eat '(' inner).then ?_
    rw [if_pos rfl]
    refine reads_product.bind fun unit rest done => reads_skipSpaces.then ?_
    rw [skipBlanks_ending (Product.ending_of_eval done)]
    dsimp only
    split
    · rename_i tail
      refine (reads_eat ')' tail).then ?_
      exact Scan.reads_pure unit
    · rename_i unclosed
      exact (reads_eat_other (head?_ne unclosed)).then reads_unexpected
  · rename_i closed
    refine (reads_eat_other (head?_ne closed)).then ?_
    refine Scan.Reads.of_apply fun trail before parted inside => ?_
    rw [← parted.byteIdx_sub]
    exact .error inside

theorem reads_fraction :
    s.fraction.Reads s.text place (fractionAt s.operatorForm s.text.toList place) := by
  refine reads_product.bind fun numerator rest _ => ?_
  dsimp only
  split
  · rename_i tail _
    refine (reads_eat '/' tail).then ?_
    rw [if_pos rfl]
    exact reads_denominator.bind fun denominator rest _ => Scan.reads_judge _
  · rename_i whole
    exact (reads_eat_other (head?_ne whole)).then (Scan.reads_pure numerator)

/-- A scan of the whole text comes to the unit of the text, and to its end. -/
theorem reads_unit (form : s.operatorForm = hasOperator s.text.toList) :
    s.unit.Reads s.text s.text.toList (do
      let unit ← parseTrimmed s.text.toList
      return (unit, [])) := by
  rw [parseTrimmed_eq, ← form, bind_assoc]
  refine reads_fraction.bind fun unit rest _ => reads_skipSpaces.then ?_
  refine Scan.Reads.of_apply fun trail before parted inside => ?_
  rw [Scan.bind_apply_ok (Scan.position_apply trail)]
  have inner : trail.position < s.text.rawEndPos ↔ skipBlanks rest ≠ [] := parted.lt_iff
  dsimp only
  by_cases finished : skipBlanks rest = []
  · rw [finished] at parted inner ⊢
    rw [if_neg (mt inner.mp (not_not.mpr rfl)), List.isEmpty_nil, if_pos rfl]
    exact Scan.reads_judge _ trail ⟨⟨before, parted⟩, inside⟩
  · rw [if_pos (inner.mpr finished), if_neg (mt List.isEmpty_iff.mp finished), ← parted.byteIdx_sub]
    exact .error inside

/-- What stands between two places of a text has been read, one character at least. -/
def Consumed (text : String) (first last : String.Pos.Raw) : Prop :=
  ∃ before run rest, run ≠ [] ∧ PartedAt text first before (run ++ rest) ∧
    PartedAt text last (before ++ run) rest

theorem consumed_of_lt {text : String} {p q : String.Pos.Raw} {before after front rest : List Char}
    (first : PartedAt text p before after) (last : PartedAt text q front rest) (forward : p < q) :
    Consumed text p q := by
  rcases List.append_eq_append_iff.mp (first.split.symm.trans last.split) with
    ⟨run, rfl, rfl⟩ | ⟨run, rfl, _⟩
  · exact ⟨before, run, rest, (first.lt_append_iff last).mp forward, first, last⟩
  · exact absurd (last.le_append first) (Nat.not_le.mpr forward)

/-- A round that is not the last one of its product consumes a part of the text. -/
theorem round_consumes {unit product : MeasureUnit} {trail later : ScanTrail}
    (inside : trail.Inside s.text) (went : s.round unit trail = (.ok (some product), later)) :
    Consumed s.text trail.position later.position := by
  obtain ⟨before, after, first⟩ := PartedAt.exists_of_valid (inside _ (List.mem_cons_self ..))
  have agrees := reads_round unit trail ⟨⟨before, first⟩, inside⟩
  rw [went] at agrees
  generalize roundAt s.operatorForm s.text.toList unit after = outcome at agrees
  cases agrees with
  | ok behind =>
    obtain ⟨front, last⟩ := behind.here
    exact consumed_of_lt first last (s.round_forward went).2

/-- A whole text, from its start to its end or to where it is refused. -/
theorem unit_agrees (text : String) :
    ∃ trail, (Scanner.mk text (hasOperator text.toList)).unit .start =
      ((parseTrimmed text.toList).mapError .refused, trail) ∧ trail.Inside text := by
  have agrees := reads_unit (s := ⟨text, hasOperator text.toList⟩) rfl _ (ScanTrail.at_start text)
  generalize Scanner.unit _ _ = result at agrees ⊢
  cases parsed : parseTrimmed text.toList with
  | ok unit =>
    rw [parsed] at agrees
    cases agrees with
    | ok behind => exact ⟨_, rfl, behind.inside⟩
  | error error =>
    rw [parsed] at agrees
    cases agrees with
    | error inside => exact ⟨_, rfl, inside⟩

end Scanner

theorem scanUnit_agrees (input : String) :
    ∃ trail, scanUnit input = ((parseUnit input).mapError .refused, trail) ∧
      trail.Inside (trimmedText input) := by
  have chars : (trimmedText input).toList = trimBlanks input.toList := String.toList_ofList
  have empty : (trimmedText input).isEmpty = (trimBlanks input.toList).isEmpty := by
    rw [Bool.eq_iff_iff, String.isEmpty_iff, List.isEmpty_iff, ← chars, String.toList_eq_nil_iff]
  unfold scanUnit parseUnit
  dsimp only
  rw [empty, ← hasOperator.eq_def]
  split
  · exact ⟨.start, rfl, (ScanTrail.at_start _).inside⟩
  · rw [← chars]
    exact Scanner.unit_agrees _

/-- The scan of a unit never cuts its text inside of a character, never breaks a
promise, and comes to what the text is parsed to. Its positions keep between the
characters. Every symbol has a positive finite scale, a round of a product that is
not the last one consumes a character, and the position in an error is where the
error says that something stands or is missing. -/
theorem scanUnit_safe (input : String) :
    (∃ trail, scanUnit input = ((parseUnit input).mapError .refused, trail) ∧
      ∀ p ∈ trail.positions, p.IsValid (trimmedText input) ∧
        p.byteIdx ≤ (trimmedText input).utf8ByteSize) ∧
    (∀ symbol scale dimension, resolveSymbol symbol = some (scale, dimension) →
      PositiveFinite scale ∧ MeasureUnit.new scale dimension = .ok ⟨scale, dimension⟩) ∧
    (∀ (s : Scanner) (unit product : MeasureUnit) (trail later : ScanTrail), trail.Inside s.text →
      s.round unit trail = (.ok (some product), later) →
      Scanner.Consumed s.text trail.position later.position) ∧
    ∀ error, parseUnit input = .error error → error.LocatedIn (trimmedText input) := by
  obtain ⟨trail, agrees, inside⟩ := scanUnit_agrees input
  refine ⟨⟨trail, agrees, fun p member => ⟨inside p member, (inside p member).le_utf8ByteSize⟩⟩,
    ?_, fun s _ _ _ _ inside went => Scanner.round_consumes inside went, fun _ failed => located_parseUnit failed⟩
  intro symbol scale dimension found
  have valid := resolveSymbol_scale found
  exact ⟨valid, MeasureUnit.new_eq_ok_iff.mpr ⟨valid, rfl⟩⟩

end Mensura
