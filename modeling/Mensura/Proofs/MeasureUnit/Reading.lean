import Mensura.Proofs.MeasureUnit.Grammar

namespace Mensura

section Runs

variable {p : Char → Bool} {run rest : List Char}

theorem takeWhile_run (inside : ∀ c ∈ run, p c = true) (stop : ∀ c ∈ rest.head?, p c = false) :
    (run ++ rest).takeWhile p = run := by
  rw [List.takeWhile_append_of_pos inside]
  cases rest with
  | nil => rw [List.takeWhile_nil, List.append_nil]
  | cons c tail => rw [List.takeWhile_cons_of_neg (by simpa using stop c rfl), List.append_nil]

theorem dropWhile_run (inside : ∀ c ∈ run, p c = true) (stop : ∀ c ∈ rest.head?, p c = false) :
    (run ++ rest).dropWhile p = rest := by
  rw [List.dropWhile_append_of_pos inside]
  cases rest with
  | nil => rfl
  | cons c tail => rw [List.dropWhile_cons_of_neg (by simpa using stop c rfl)]

theorem takeWhile_inside (text : List Char) : ∀ c ∈ text.takeWhile p, p c = true :=
  List.all_eq_true.mp List.all_takeWhile

/-- What holds of the first character holds of whatever a text starts with. -/
theorem outside_head {c : Char} (outside : p c = false) (rest : List Char) :
    ∀ d ∈ (c :: rest).head?, p d = false := by
  intro d first
  cases Option.some.inj first
  exact outside

end Runs

theorem skipBlanks_append {w rest : List Char} (blank : Blanks w)
    (stop : ∀ c ∈ rest.head?, isBlank c = false) : skipBlanks (w ++ rest) = rest :=
  dropWhile_run blank stop

theorem skipBlanks_split (text : List Char) : ∃ w, Blanks w ∧ text = w ++ skipBlanks text :=
  ⟨text.takeWhile isBlank, takeWhile_inside text, List.takeWhile_append_dropWhile.symm⟩

/-- A place behind which neither a symbol nor an exponent goes on. -/
def Stops (rest : List Char) : Prop :=
  ∀ c ∈ rest.head?, isSymbolChar c = false ∧ c ≠ '^'

/-- The end of a text, or a place at which a product can end inside of it. -/
def Closes (rest : List Char) : Prop :=
  ∀ c ∈ rest.head?, c = '/' ∨ c = ')'

section Stops

theorem isBlank_of_closes {rest : List Char} (closes : Closes rest) :
    ∀ c ∈ rest.head?, isBlank c = false := by
  intro c first
  rcases closes c first with rfl | rfl <;> decide

theorem stops_of_closes {rest : List Char} (closes : Closes rest) : Stops rest := by
  intro c first
  rcases closes c first with rfl | rfl <;> decide

theorem stops_star (rest : List Char) : Stops ('*' :: rest) := by
  intro c first
  cases Option.some.inj first
  decide

theorem stops_blank {c : Char} (white : isBlank c = true) (rest : List Char) : Stops (c :: rest) := by
  intro d first
  cases Option.some.inj first
  refine ⟨by simp [isSymbolChar, white], ?_⟩
  rintro rfl
  exact absurd white (by decide)

theorem stops_blanks {w rest : List Char} (blank : Blanks w) (stops : Stops rest) :
    Stops (w ++ rest) := by
  cases w with
  | nil => exact stops
  | cons c tail => exact stops_blank (blank c (List.mem_cons_self ..)) (tail ++ rest)

theorem stops_separator {between : List Char} (separator : Separator between) (rest : List Char) :
    Stops (between ++ rest) := by
  cases separator with
  | star before after =>
    rw [List.append_assoc]
    exact stops_blanks before (stops_star _)
  | blank some white =>
    obtain ⟨c, tail, rfl⟩ := List.exists_cons_of_ne_nil some
    exact stops_blank (white c (List.mem_cons_self ..)) (tail ++ rest)

end Stops

/-- A place at which a written factor is over: behind a bare symbol neither the
symbol goes on nor an exponent starts, and behind an exponent there are no more digits. -/
def Factor.Ends (factor : Factor) (rest : List Char) : Prop :=
  match factor.exponent with
  | none => Stops rest
  | some _ => ∀ c ∈ rest.head?, isExponentChar c = false

theorem Factor.ends_of_stops (factor : Factor) {rest : List Char} (stops : Stops rest) :
    factor.Ends rest := by
  obtain ⟨symbol, exponent⟩ := factor
  cases exponent with
  | none => exact stops
  | some text =>
    intro c first
    refine Bool.eq_false_iff.mpr fun goesOn => ?_
    exact absurd (isSymbolChar_of_isExponentChar goesOn) (by simp [(stops c first).1])

/-- A factor is read as far as it is written. -/
theorem readFactor_ended {text rest : List Char} {factor : Factor} (written : factor.Written text)
    (ends : factor.Ends rest) : readFactor (text ++ rest) = some (factor, rest) := by
  cases written with
  | @plain symbol some all =>
    have noSymbol : ∀ c ∈ rest.head?, isSymbolChar c = false := fun c first => (ends c first).1
    simp only [readFactor, takeWhile_run all noSymbol, dropWhile_run all noSymbol,
      List.isEmpty_iff, some, if_false]
    split
    · exact absurd rfl (ends '^' rfl).2
    · rfl
  | @raised symbol exponent some all digits =>
    have raise := outside_head (p := isSymbolChar) (c := '^') (by decide) (exponent ++ rest)
    have noDigit : ∀ c ∈ rest.head?, isExponentChar c = false := ends
    rw [List.append_assoc, List.cons_append]
    simp only [readFactor, takeWhile_run all raise, dropWhile_run all raise, List.isEmpty_iff, some,
      if_false, takeWhile_run digits noDigit, dropWhile_run digits noDigit]

theorem readFactor_written {text rest : List Char} {factor : Factor} (written : factor.Written text)
    (stops : Stops rest) : readFactor (text ++ rest) = some (factor, rest) :=
  readFactor_ended written (factor.ends_of_stops stops)

theorem dropWhile_outside {p : Char → Bool} (text : List Char) :
    ∀ c ∈ (text.dropWhile p).head?, p c = false := by
  intro c first
  have stopped := List.head?_dropWhile_not p text
  rw [Option.mem_def.mp first] at stopped
  simpa using stopped

theorem ended_of_readFactor {text rest : List Char} {factor : Factor}
    (read : readFactor text = some (factor, rest)) :
    ∃ body, factor.Written body ∧ factor.Ends rest ∧ text = body ++ rest := by
  have symbols := List.takeWhile_append_dropWhile (p := isSymbolChar) (l := text)
  simp only [readFactor, List.isEmpty_iff] at read
  split at read
  · cases read
  rename_i some
  split at read
  · rename_i tail after
    have digits := List.takeWhile_append_dropWhile (p := isExponentChar) (l := tail)
    cases read
    refine ⟨_, .raised some (takeWhile_inside text) (takeWhile_inside tail),
      dropWhile_outside tail, ?_⟩
    rw [List.append_assoc, List.cons_append, digits, ← after, symbols]
  · rename_i noRaise
    cases read
    refine ⟨_, .plain some (takeWhile_inside text), fun c first => ⟨dropWhile_outside text c first, ?_⟩,
      symbols.symm⟩
    rintro rfl
    obtain ⟨tail, after⟩ := List.head?_eq_some_iff.mp first
    exact noRaise tail after

theorem written_of_readFactor {text rest : List Char} {factor : Factor}
    (read : readFactor text = some (factor, rest)) :
    ∃ body, factor.Written body ∧ text = body ++ rest := by
  obtain ⟨body, written, _, split⟩ := ended_of_readFactor read
  exact ⟨body, written, split⟩

theorem nextFactor?_separator {between tail : List Char} {c : Char} (separator : Separator between)
    (symbol : isSymbolChar c = true) : nextFactor? (between ++ c :: tail) = some (c :: tail) := by
  have stop := outside_head (isBlank_eq_false_of_isSymbolChar symbol) tail
  cases separator with
  | @star before after whiteBefore whiteAfter =>
    have skipped : skipBlanks (before ++ '*' :: (after ++ c :: tail)) = '*' :: (after ++ c :: tail) :=
      skipBlanks_append whiteBefore (outside_head (by decide) _)
    rw [List.append_assoc, List.cons_append, nextFactor?, skipped]
    exact congrArg some (skipBlanks_append whiteAfter stop)
  | blank some white =>
    have noStar : c ≠ '*' := by
      rintro rfl
      exact absurd symbol (by decide)
    rw [nextFactor?, skipBlanks_append white stop]
    split
    · rename_i start
      exact absurd (List.cons.inj start).1 noStar
    · rename_i start
      cases start
      rw [if_pos (by simp [symbol, List.length_pos_iff, some])]
    · rename_i start
      cases start

theorem nextFactor?_closes {w rest : List Char} (blank : Blanks w) (closes : Closes rest) :
    nextFactor? (w ++ rest) = none := by
  rw [nextFactor?, skipBlanks_append blank (isBlank_of_closes closes)]
  split
  · exact absurd (closes '*' rfl) (by decide)
  · rename_i c tail _
    have noSymbol := (stops_of_closes closes c rfl).1
    rw [if_neg (by simp [noSymbol])]
  · rfl

theorem separator_of_nextFactor? {text next : List Char} (found : nextFactor? text = some next) :
    ∃ between, Separator between ∧ text = between ++ next := by
  obtain ⟨before, whiteBefore, split⟩ := skipBlanks_split text
  unfold nextFactor? at found
  split at found
  · rename_i rest start
    obtain ⟨after, whiteAfter, splitAfter⟩ := skipBlanks_split rest
    cases found
    refine ⟨_, .star whiteBefore whiteAfter, ?_⟩
    rw [List.append_assoc, List.cons_append, ← splitAfter, ← start]
    exact split
  · rename_i c rest _ start
    split at found
    · rename_i starts
      cases found
      refine ⟨before, .blank ?_ whiteBefore, by rw [← start]; exact split⟩
      rintro rfl
      rw [start, List.nil_append] at split
      rw [split] at starts
      simp at starts
    · cases found
  · cases found

theorem readFactors_missing {text : List Char} (unread : readFactor text = none) :
    readFactors text = ⟨[], .error text⟩ := by
  rw [readFactors]
  split
  · rfl
  · rename_i read
    cases read.symm.trans unread

theorem readFactors_last {text rest : List Char} {factor : Factor}
    (read : readFactor text = some (factor, rest)) (last : nextFactor? rest = none) :
    readFactors text = ⟨[factor], .ok (skipBlanks rest)⟩ := by
  rw [readFactors]
  split
  · rename_i unread
    cases unread.symm.trans read
  · rename_i reread
    cases reread.symm.trans read
    split
    · rfl
    · rename_i found
      cases found.symm.trans last

theorem readFactors_more {text rest next : List Char} {factor : Factor}
    (read : readFactor text = some (factor, rest)) (found : nextFactor? rest = some next) :
    readFactors text = ⟨factor :: (readFactors next).factors, (readFactors next).ending⟩ := by
  rw [readFactors]
  split
  · rename_i unread
    cases unread.symm.trans read
  · rename_i reread
    cases reread.symm.trans read
    split
    · rename_i last
      cases last.symm.trans found
    · rename_i again
      cases again.symm.trans found
      rfl

/-- A product is read as far as it is written, up to the end of the text, a
slash or a parenthesis, and blanks in front of those are skipped. -/
theorem readFactors_product {text w rest : List Char} {factors : List Factor}
    (product : ProductText text factors) (blank : Blanks w) (closes : Closes rest) :
    readFactors (text ++ w ++ rest) = ⟨factors, .ok rest⟩ := by
  -- Induction on the spelling: a factor is stopped by the separator behind it,
  -- and the last one by what ends the product.
  induction product with
  | single written =>
    have read := readFactor_written written (stops_blanks blank (stops_of_closes closes))
    rw [List.append_assoc, readFactors_last read (nextFactor?_closes blank closes),
      skipBlanks_append blank (isBlank_of_closes closes)]
  | @next head between body factor factors written separator later ih =>
    obtain ⟨c, tail, rfl, symbol⟩ := later.head
    have read := readFactor_written written (stops_separator separator (c :: tail ++ w ++ rest))
    have found : nextFactor? (between ++ (c :: tail ++ w ++ rest)) = some (c :: tail ++ w ++ rest) :=
      nextFactor?_separator separator symbol
    have joined : head ++ between ++ c :: tail ++ w ++ rest =
        head ++ (between ++ (c :: tail ++ w ++ rest)) := by
      simp only [List.append_assoc, List.cons_append]
    rw [joined, readFactors_more read found, ih]

theorem readProduct_product {before text w rest : List Char} {factors : List Factor}
    (white : Blanks before) (product : ProductText text factors) (blank : Blanks w)
    (closes : Closes rest) : readProduct (before ++ (text ++ w ++ rest)) = ⟨factors, .ok rest⟩ := by
  have read := readFactors_product product blank closes
  obtain ⟨c, tail, rfl, symbol⟩ := product.head
  have stop : ∀ d ∈ (c :: tail ++ w ++ rest).head?, isBlank d = false :=
    outside_head (isBlank_eq_false_of_isSymbolChar symbol) _
  rw [readProduct, skipBlanks_append white stop, read]

/-- What was read of a product is the spelling of one, with blanks behind it. -/
theorem product_of_readFactors {text rest : List Char} {factors : List Factor}
    (read : readFactors text = ⟨factors, .ok rest⟩) :
    ∃ body w, ProductText body factors ∧ Blanks w ∧ text = body ++ w ++ rest := by
  induction text using readFactors.induct generalizing factors with
  | case1 text unread =>
    rw [readFactors_missing unread] at read
    cases read
  | case2 text factor behind first last =>
    obtain ⟨body, written, split⟩ := written_of_readFactor first
    obtain ⟨w, blank, splitBehind⟩ := skipBlanks_split behind
    rw [readFactors_last first last] at read
    cases read
    refine ⟨body, w, .single written, blank, ?_⟩
    rw [List.append_assoc, ← splitBehind]
    exact split
  | case3 text factor behind first next found ih =>
    obtain ⟨head, written, split⟩ := written_of_readFactor first
    obtain ⟨between, separator, splitBehind⟩ := separator_of_nextFactor? found
    rw [readFactors_more first found] at read
    have readNext : readFactors next = ⟨(readFactors next).factors, .ok rest⟩ := by
      rw [← (Product.mk.inj read).2]
    obtain ⟨body, w, product, blank, splitNext⟩ := ih readNext
    rw [← (Product.mk.inj read).1]
    refine ⟨_, w, .next written separator product, blank, ?_⟩
    rw [split, splitBehind, splitNext]
    simp only [List.append_assoc]

theorem product_of_readProduct {text rest : List Char} {factors : List Factor}
    (read : readProduct text = ⟨factors, .ok rest⟩) :
    ∃ before body w, Blanks before ∧ ProductText body factors ∧ Blanks w ∧
      text = before ++ (body ++ w ++ rest) := by
  obtain ⟨before, white, split⟩ := skipBlanks_split text
  obtain ⟨body, w, product, blank, splitBody⟩ := product_of_readFactors read
  exact ⟨before, body, w, white, product, blank, by rw [← splitBody]; exact split⟩

end Mensura
