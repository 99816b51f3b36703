import Mensura.Proofs.MeasureUnit.Parsing

namespace Mensura

section Blanks

variable {run w w' text rest rest' : List Char}

theorem Blanks.append (white : Blanks w) (white' : Blanks w') : Blanks (w ++ w') := by
  intro c member
  exact (List.mem_append.mp member).elim (white c) (white' c)

theorem Blanks.not_mem {c : Char} (white : Blanks w) (ink : isBlank c = false) : c ∉ w := by
  intro inside
  rw [white c inside] at ink
  cases ink

theorem Separator.prepend (white : Blanks w) (separator : Separator text) : Separator (w ++ text) := by
  cases separator with
  | star before after =>
    rw [← List.append_assoc]
    exact .star (white.append before) after
  | blank some blank => exact .blank (List.append_ne_nil_of_right_ne_nil w some) (white.append blank)

/-- Blanks at the start of a text are taken from the blanks that the text starts with. -/
theorem blanks_cut (white : Blanks run) (stop : ∀ c ∈ rest.head?, isBlank c = false)
    (split : run ++ text = w ++ rest) : ∃ more, w = run ++ more ∧ text = more ++ rest := by
  rcases List.append_eq_append_iff.mp split with ⟨more, longer, same⟩ | ⟨more, rfl, same⟩
  · exact ⟨more, longer, same⟩
  · cases more with
    | nil => exact ⟨[], by simp, same.symm⟩
    | cons c tail =>
      subst same
      exact absurd (white c (by simp)) (by simp [stop c rfl])

theorem blanks_unique (white : Blanks w) (white' : Blanks w')
    (stop : ∀ c ∈ rest.head?, isBlank c = false) (stop' : ∀ c ∈ rest'.head?, isBlank c = false)
    (split : w ++ rest = w' ++ rest') : rest = rest' := by
  rw [← skipBlanks_append white stop, split, skipBlanks_append white' stop']

theorem trimBlanks_split (text : List Char) :
    ∃ before after, Blanks before ∧ Blanks after ∧ text = before ++ (trimBlanks text ++ after) := by
  obtain ⟨before, whiteBefore, split⟩ := skipBlanks_split text
  obtain ⟨after, whiteAfter, inner⟩ := skipBlanks_trimBlanks text
  rw [inner] at split
  exact ⟨before, after, whiteBefore, whiteAfter, split⟩

/-- Blanks around a text are the same as none. -/
theorem trimBlanks_pad (before : Blanks w) (after : Blanks w') (text : List Char) :
    trimBlanks (w ++ (text ++ w')) = trimBlanks text := by
  have front : skipBlanks (w ++ (text ++ w')) = skipBlanks (text ++ w') :=
    List.dropWhile_append_of_pos before
  have back (body : List Char) : skipBlanks (w'.reverse ++ body) = skipBlanks body :=
    List.dropWhile_append_of_pos fun c member => after c (List.mem_reverse.mp member)
  have join : skipBlanks (text ++ w') =
      if (skipBlanks text).isEmpty then skipBlanks w' else skipBlanks text ++ w' :=
    List.dropWhile_append
  rw [trimBlanks, front, join, trimBlanks]
  split
  · rename_i empty
    have all : skipBlanks (w' ++ []) = [] :=
      skipBlanks_append after fun c first => absurd first (Option.not_mem_none c)
    rw [List.append_nil] at all
    rw [List.isEmpty_iff.mp empty, all]
  · rw [List.reverse_append, back]

end Blanks

/-- Texts that differ in what stands between their parts. Blanks may have become
other blanks, a star with the blanks around it may have become blanks, and where
`stars` holds, the blanks between two symbols may have become a star. The flag says
whether a symbol ends right in front of the text. -/
inductive Respaced (stars : Prop) : Bool → List Char → List Char → Prop
  | done {flag : Bool} : Respaced stars flag [] []
  | keep {flag : Bool} (c : Char) {text other : List Char} :
      Respaced stars (isSymbolChar c) text other → Respaced stars flag (c :: text) (c :: other)
  | blanks {flag : Bool} {run run' text other : List Char} : run ≠ [] → Blanks run → run' ≠ [] →
      Blanks run' → Respaced stars false text other → Respaced stars flag (run ++ text) (run' ++ other)
  | loosen {flag : Bool} {before after run text other : List Char} : Blanks before → Blanks after →
      run ≠ [] → Blanks run → Respaced stars false text other →
      Respaced stars flag (before ++ '*' :: (after ++ text)) (run ++ other)
  | tighten {run before after text other : List Char} {d : Char} : stars → run ≠ [] → Blanks run →
      isSymbolChar d = true → Blanks before → Blanks after → Respaced stars false (d :: text) other →
      Respaced stars true (run ++ d :: text) (before ++ '*' :: (after ++ other))

/-- A place at which neither blanks nor a star go on. -/
def Solid (rest : List Char) : Prop :=
  ∀ c ∈ rest.head?, isBlank c = false ∧ c ≠ '*'

theorem Solid.not_blank {rest : List Char} (solid : Solid rest) : ∀ c ∈ rest.head?, isBlank c = false :=
  fun c first => (solid c first).1

namespace Respaced

variable {stars : Prop} {flag : Bool} {text rest other w before after gap : List Char} {c : Char}

theorem refl (text : List Char) : Respaced stars flag text text := by
  induction text generalizing flag with
  | nil => exact .done
  | cons c text ih => exact .keep c ih

theorem append_left (front : List Char) (edit : ∀ flag, Respaced stars flag text other) :
    Respaced stars flag (front ++ text) (front ++ other) := by
  induction front generalizing flag with
  | nil => exact edit flag
  | cons c front ih => exact .keep c ih

/-- Where no stars are added, whatever is no blank has been there before. -/
theorem mem (edit : Respaced False flag text other) (ink : isBlank c = false) (member : c ∈ other) :
    c ∈ text := by
  induction edit with
  | done => exact member
  | keep d _ ih =>
    rcases List.mem_cons.mp member with rfl | member
    · exact List.mem_cons_self ..
    · exact List.mem_cons_of_mem d (ih member)
  | blanks _ _ _ white' _ ih =>
    rcases List.mem_append.mp member with inside | member
    · exact (white'.not_mem ink inside).elim
    · exact List.mem_append_right _ (ih member)
  | loosen _ _ _ white _ ih =>
    rcases List.mem_append.mp member with inside | member
    · exact (white.not_mem ink inside).elim
    · exact List.mem_append_right _ (List.mem_cons_of_mem _ (List.mem_append_right _ (ih member)))
  | tighten stars => exact stars.elim

theorem nil (edit : Respaced stars flag [] other) : other = [] := by
  generalize split : [] = whole at edit
  cases edit with
  | done => rfl
  | keep => cases split
  | blanks some => exact absurd (List.append_eq_nil_iff.mp split.symm).1 some
  | loosen => exact absurd split.symm (List.append_ne_nil_of_right_ne_nil _ (List.cons_ne_nil _ _))
  | tighten => exact absurd split.symm (List.append_ne_nil_of_right_ne_nil _ (List.cons_ne_nil _ _))

theorem head (ink : isBlank c = false) (notStar : c ≠ '*')
    (edit : Respaced stars flag (c :: text) other) :
    ∃ tail, other = c :: tail ∧ Respaced stars (isSymbolChar c) text tail := by
  have notBlank {run tail : List Char} (some : run ≠ []) (white : Blanks run) :
      c :: text ≠ run ++ tail := by
    intro same
    obtain ⟨d, later, rfl⟩ := List.exists_cons_of_ne_nil some
    cases same
    rw [white c (List.mem_cons_self ..)] at ink
    cases ink
  generalize split : c :: text = whole at edit
  cases edit with
  | done => cases split
  | keep d edit =>
    cases split
    exact ⟨_, rfl, edit⟩
  | blanks some white => exact (notBlank some white split).elim
  | @loosen _ before _ _ _ _ white =>
    cases before with
    | nil =>
      cases split
      exact (notStar rfl).elim
    | cons d tail => exact (notBlank (List.cons_ne_nil d tail) white split).elim
  | tighten _ some white => exact (notBlank some white split).elim

theorem kept (ink : ∀ c ∈ text, isBlank c = false ∧ c ≠ '*')
    (edit : Respaced stars flag (text ++ rest) other) :
    ∃ tail flag', other = text ++ tail ∧ Respaced stars flag' rest tail := by
  induction text generalizing flag other with
  | nil => exact ⟨other, flag, rfl, edit⟩
  | cons c text ih =>
    obtain ⟨notBlank, notStar⟩ := ink c (List.mem_cons_self ..)
    obtain ⟨later, rfl, behind⟩ := edit.head notBlank notStar
    obtain ⟨tail, flag', rfl, edited⟩ := ih (fun d member => ink d (List.mem_cons_of_mem c member)) behind
    exact ⟨tail, flag', rfl, edited⟩

/-- Blanks in front of a place become other blanks, or a star if they stand between
two symbols. -/
theorem blanks_become (solid : Solid rest) (white : Blanks w)
    (edit : Respaced stars flag (w ++ rest) other) :
    ∃ gap tail flag', other = gap ++ tail ∧ Respaced stars flag' rest tail ∧
      (Blanks gap ∧ (w ≠ [] → gap ≠ []) ∨
        flag = true ∧ (∃ c ∈ rest.head?, isSymbolChar c = true) ∧ Separator gap) := by
  generalize split : w ++ rest = whole at edit
  -- Behind a blank no symbol ends, so only the first step can see the flag.
  induction edit generalizing w with
  | done =>
    obtain ⟨rfl, rfl⟩ := List.append_eq_nil_iff.mp split
    exact ⟨[], [], false, rfl, .done, Or.inl ⟨nofun, id⟩⟩
  | @keep flag c text other edit ih =>
    cases w with
    | nil =>
      subst split
      exact ⟨[], _, flag, rfl, .keep c edit, Or.inl ⟨nofun, id⟩⟩
    | cons d later =>
      cases split
      obtain ⟨blank, whiteLater⟩ := List.forall_mem_cons.mp white
      obtain ⟨gap, tail, flag', rfl, edited, ⟨white', _⟩ | ⟨symbol, _⟩⟩ := ih whiteLater rfl
      · exact ⟨c :: gap, tail, flag', rfl, edited,
          Or.inl ⟨List.forall_mem_cons.mpr ⟨blank, white'⟩, fun _ => List.cons_ne_nil c gap⟩⟩
      · exact absurd symbol (by simp [isSymbolChar, blank])
  | blanks _ blank some blank' _ ih =>
    obtain ⟨more, rfl, rfl⟩ := blanks_cut blank solid.not_blank split.symm
    obtain ⟨gap, tail, flag', rfl, edited, ⟨white', _⟩ | ⟨symbol, _⟩⟩ :=
      ih (fun e member => white e (List.mem_append_right _ member)) rfl
    · exact ⟨_, tail, flag', (List.append_assoc ..).symm, edited,
        Or.inl ⟨blank'.append white', fun _ => List.append_ne_nil_of_left_ne_nil some gap⟩⟩
    · cases symbol
  | loosen blank =>
    have same := blanks_unique white blank solid.not_blank (outside_head (by decide) _) split
    subst same
    exact ((solid '*' rfl).2 rfl).elim
  | tighten _ _ blank symbol whiteBefore whiteAfter edit =>
    have same := blanks_unique white blank solid.not_blank
      (outside_head (isBlank_eq_false_of_isSymbolChar symbol) _) split
    subst same
    exact ⟨_, _, false, by simp only [List.append_assoc, List.cons_append], edit,
      Or.inr ⟨rfl, ⟨_, rfl, symbol⟩, .star whiteBefore whiteAfter⟩⟩

/-- Blanks that are not between two symbols stay blanks. -/
theorem blanks_kept (closed : flag = false ∨ ∀ c ∈ rest.head?, isSymbolChar c = false) (solid : Solid rest)
    (white : Blanks w) (edit : Respaced stars flag (w ++ rest) other) :
    ∃ w' tail flag', other = w' ++ tail ∧ Blanks w' ∧ Respaced stars flag' rest tail := by
  obtain ⟨gap, tail, flag', same, edited, ⟨white', _⟩ | ⟨behind, ⟨c, first, symbol⟩, _⟩⟩ :=
    edit.blanks_become solid white
  · exact ⟨gap, tail, flag', same, white', edited⟩
  · rcases closed with closed | closed
    · exact absurd behind (by simp [closed])
    · exact absurd symbol (by simp [closed c first])

/-- Blanks between two factors stay a separator. -/
theorem blanks_separate (solid : Solid rest) (some : w ≠ []) (white : Blanks w)
    (edit : Respaced stars flag (w ++ rest) other) :
    ∃ gap tail flag', other = gap ++ tail ∧ Separator gap ∧ Respaced stars flag' rest tail := by
  obtain ⟨gap, tail, flag', same, edited, ⟨white', nonempty⟩ | ⟨_, _, separator⟩⟩ :=
    edit.blanks_become solid white
  · exact ⟨gap, tail, flag', same, .blank (nonempty some) white', edited⟩
  · exact ⟨gap, tail, flag', same, separator, edited⟩

/-- A separator in front of a factor stays a separator. -/
theorem separator_kept (solid : Solid rest) (separator : Separator gap)
    (edit : Respaced stars flag (gap ++ rest) other) :
    ∃ gap' tail flag', other = gap' ++ tail ∧ Separator gap' ∧ Respaced stars flag' rest tail := by
  cases separator with
  | blank some white => exact edit.blanks_separate solid some white
  | @star before after whiteBefore whiteAfter =>
    have starHead (tail : List Char) : ∀ c ∈ ('*' :: tail).head?, isBlank c = false :=
      outside_head (by decide) tail
    rw [List.append_assoc, List.cons_append] at edit
    generalize split : before ++ '*' :: (after ++ rest) = whole at edit
    induction edit generalizing before with
    | done => exact absurd split (List.append_ne_nil_of_right_ne_nil before (List.cons_ne_nil _ _))
    | keep c edit ih =>
      cases before with
      | nil =>
        cases split
        obtain ⟨after', tail, flag', rfl, blank, edited⟩ := edit.blanks_kept (.inl rfl) solid whiteAfter
        exact ⟨'*' :: after', tail, flag', rfl, @Separator.star [] after' nofun blank, edited⟩
      | cons d later =>
        cases split
        obtain ⟨white, whiteLater⟩ := List.forall_mem_cons.mp whiteBefore
        obtain ⟨gap', tail, flag', rfl, separator, edited⟩ := ih whiteLater rfl
        exact ⟨c :: gap', tail, flag', rfl, separator.prepend (List.forall_mem_singleton.mpr white), edited⟩
    | blanks _ blank _ blank' _ ih =>
      obtain ⟨more, rfl, same⟩ := blanks_cut blank (starHead _) split.symm
      obtain ⟨gap', tail, flag', rfl, separator, edited⟩ := ih
        (fun e member => whiteBefore e (List.mem_append_right _ member)) same.symm
      exact ⟨_, tail, flag', (List.append_assoc ..).symm, separator.prepend blank', edited⟩
    | loosen blank blankAfter some blank' edit =>
      have same := blanks_unique whiteBefore blank (starHead _) (starHead _) split
      obtain ⟨more, rfl, rfl⟩ := blanks_cut blankAfter solid.not_blank (List.cons.inj same).2.symm
      obtain ⟨more', tail, flag', rfl, white, edited⟩ := edit.blanks_kept (.inl rfl) solid
        (fun e member => whiteAfter e (List.mem_append_right _ member))
      exact ⟨_, tail, flag', (List.append_assoc ..).symm,
        .blank (List.append_ne_nil_of_left_ne_nil some more') (blank'.append white), edited⟩
    | tighten _ _ blank symbol =>
      have same := blanks_unique whiteBefore blank (starHead _)
        (outside_head (isBlank_eq_false_of_isSymbolChar symbol) _) split
      cases same
      exact absurd symbol (by decide)

end Respaced

theorem Factor.Written.not_star {text : List Char} {factor : Factor} (written : factor.Written text) :
    ∀ c ∈ text, c ≠ '*' := by
  have symbol {c : Char} (inside : isSymbolChar c = true) : c ≠ '*' := by
    rintro rfl
    exact absurd inside (by decide)
  intro c member
  cases written with
  | plain _ all => exact symbol (all c member)
  | raised _ all digits =>
    rcases List.mem_append.mp member with member | member
    · exact symbol (all c member)
    · rcases List.mem_cons.mp member with rfl | member
      · decide
      · exact symbol (isSymbolChar_of_isExponentChar (digits c member))

theorem solid_of_isSymbolChar {c : Char} (symbol : isSymbolChar c = true) (rest : List Char) :
    Solid (c :: rest) := by
  intro d first
  cases first
  refine ⟨isBlank_eq_false_of_isSymbolChar symbol, ?_⟩
  rintro rfl
  exact absurd symbol (by decide)

section Spelling

variable {stars : Prop} {flag : Bool} {text rest other : List Char}

/-- A product spells the same factors in a text that is spaced in another way. -/
theorem ProductText.respaced {factors : List Factor} (product : ProductText text factors)
    (edit : Respaced stars flag (text ++ rest) other) :
    ∃ text' rest' flag', other = text' ++ rest' ∧ ProductText text' factors ∧
      Respaced stars flag' rest rest' := by
  induction product generalizing flag other with
  | @single text factor written =>
    obtain ⟨rest', flag', same, edited⟩ :=
      edit.kept fun c member => ⟨written.not_blank c member, written.not_star c member⟩
    exact ⟨text, rest', flag', same, .single written, edited⟩
  | @next text between tail factor factors written separator product ih =>
    have solid : Solid (tail ++ rest) := by
      obtain ⟨c, later, rfl, symbol⟩ := product.head
      exact solid_of_isSymbolChar symbol (later ++ rest)
    simp only [List.append_assoc] at edit
    obtain ⟨afterText, _, same, afterFactor⟩ :=
      edit.kept fun c member => ⟨written.not_blank c member, written.not_star c member⟩
    obtain ⟨between', afterBetween, _, rfl, separator', afterSeparator⟩ :=
      afterFactor.separator_kept solid separator
    obtain ⟨tail', rest', flag', rfl, product', edited⟩ := ih afterSeparator
    refine ⟨text ++ between' ++ tail', rest', flag', ?_, .next written separator' product', edited⟩
    rw [same]
    simp only [List.append_assoc]

theorem UnitText.respaced {formula : Fraction Factor} (written : UnitText text formula)
    (edit : Respaced stars flag (text ++ rest) other) :
    ∃ text' rest' flag', other = text' ++ rest' ∧ UnitText text' formula ∧
      Respaced stars flag' rest rest' := by
  cases written with
  | product product =>
    obtain ⟨text', rest', flag', same, product', edited⟩ := product.respaced edit
    exact ⟨text', rest', flag', same, .product product', edited⟩
  | @quotient above beforeSlash afterSlash inside below behind factors divisors
      product whiteBefore whiteAfter whiteInside divisor whiteBehind =>
    -- The three signs of a quotient stay where they are, and no symbol stands beside them.
    have notSymbol (c : Char) (outside : isSymbolChar c = false) (tail : List Char) :
        ∀ d ∈ (c :: tail).head?, isSymbolChar d = false := outside_head outside tail
    have solid (c : Char) (notBlank : isBlank c = false) (notStar : c ≠ '*') (tail : List Char) :
        Solid (c :: tail) := by
      intro d first
      cases first
      exact ⟨notBlank, notStar⟩
    have solidBelow : Solid (below ++ (behind ++ ')' :: rest)) := by
      obtain ⟨c, later, rfl, symbol⟩ := divisor.head
      exact solid_of_isSymbolChar symbol _
    simp only [List.append_assoc, List.cons_append, List.nil_append] at edit
    obtain ⟨above', _, _, rfl, product', edit₁⟩ := product.respaced edit
    obtain ⟨beforeSlash', _, _, rfl, whiteBefore', edit₂⟩ := edit₁.blanks_kept
      (.inr (notSymbol '/' (by decide) _)) (solid '/' (by decide) (by decide) _) whiteBefore
    obtain ⟨_, rfl, edit₃⟩ := edit₂.head (by decide) (by decide)
    obtain ⟨afterSlash', _, _, rfl, whiteAfter', edit₄⟩ := edit₃.blanks_kept
      (.inl (by decide)) (solid '(' (by decide) (by decide) _) whiteAfter
    obtain ⟨_, rfl, edit₅⟩ := edit₄.head (by decide) (by decide)
    obtain ⟨inside', _, _, rfl, whiteInside', edit₆⟩ := edit₅.blanks_kept
      (.inl (by decide)) solidBelow whiteInside
    obtain ⟨below', _, _, rfl, divisor', edit₇⟩ := divisor.respaced edit₆
    obtain ⟨behind', _, _, rfl, whiteBehind', edit₈⟩ := edit₇.blanks_kept
      (.inr (notSymbol ')' (by decide) _)) (solid ')' (by decide) (by decide) _) whiteBehind
    obtain ⟨rest', rfl, edited⟩ := edit₈.head (by decide) (by decide)
    refine ⟨_, rest', _, ?_,
      .quotient product' whiteBefore' whiteAfter' whiteInside' divisor' whiteBehind', edited⟩
    simp only [List.append_assoc, List.cons_append, List.nil_append]

theorem UnitText.trimmed {formula : Fraction Factor} (written : UnitText text formula) :
    trimBlanks text = text := by
  refine trimBlanks_eq_self ?_ written.last
  obtain ⟨c, tail, rfl, symbol⟩ := written.head
  exact outside_head (isBlank_eq_false_of_isSymbolChar symbol) tail

/-- A text that spells a formula between blanks still does when it is spaced in
another way. -/
theorem UnitText.trimBlanks_respaced {formula : Fraction Factor}
    (written : UnitText (trimBlanks text) formula) (edit : Respaced stars false text other) :
    UnitText (trimBlanks other) formula := by
  obtain ⟨before, after, whiteBefore, whiteAfter, split⟩ := trimBlanks_split text
  have solid : Solid (trimBlanks text ++ after) := by
    obtain ⟨c, tail, start, symbol⟩ := written.head
    rw [start]
    exact solid_of_isSymbolChar symbol (tail ++ after)
  have ended : ∀ c ∈ ([] : List Char).head?, isSymbolChar c = false := nofun
  have solidEnd : Solid [] := nofun
  rw [split] at edit
  obtain ⟨before', _, _, rfl, whiteBefore', edit₁⟩ := edit.blanks_kept (.inl rfl) solid whiteBefore
  obtain ⟨text', _, _, rfl, written', edit₂⟩ := written.respaced edit₁
  rw [← List.append_nil after] at edit₂
  obtain ⟨after', rest', _, rfl, whiteAfter', edit₃⟩ :=
    edit₂.blanks_kept (.inr ended) solidEnd whiteAfter
  rw [edit₃.nil, List.append_nil, trimBlanks_pad whiteBefore' whiteAfter', written'.trimmed]
  exact written'

end Spelling

end Mensura
