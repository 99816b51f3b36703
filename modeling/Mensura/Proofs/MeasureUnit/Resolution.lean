import Mathlib.Data.List.Nodup
import Mensura.MeasureUnit.Symbol

namespace Mensura

/-- A token that is the name of a symbol. -/
structure WholeToken (symbols : List UnitSymbol) (token : List Char) (symbol : UnitSymbol) : Prop where
  known : symbol ∈ symbols
  written : symbol.name.toList = token

/-- A token that is a multiple with the name of a symbol behind it that takes one. -/
structure SplitToken (multiples : List Multiple) (symbols : List UnitSymbol) (token : List Char)
    (multiple : Multiple) (symbol : UnitSymbol) : Prop where
  multiple_known : multiple ∈ multiples
  symbol_known : symbol ∈ symbols
  takes : symbol.takesMultiple = true
  written : multiple.name.toList ++ symbol.name.toList = token

/-- What a token stands for: the symbol that it names, or a multiple of the symbol
that it ends with if it names none. -/
inductive Resolved (multiples : List Multiple) (symbols : List UnitSymbol) (token : List Char) :
    Float × Dimension → Prop
  | whole {symbol : UnitSymbol} : WholeToken symbols token symbol →
      Resolved multiples symbols token (symbol.scale, symbol.dimension)
  | split {multiple : Multiple} {symbol : UnitSymbol} : (∀ named, ¬ WholeToken symbols token named) →
      SplitToken multiples symbols token multiple symbol →
      Resolved multiples symbols token (multiple.factor * symbol.scale, symbol.dimension)

/-- Tables in which no token names two symbols or is split in two ways. -/
structure Unambiguous (multiples : List Multiple) (symbols : List UnitSymbol) : Prop where
  whole : ∀ {token symbol symbol'}, WholeToken symbols token symbol →
    WholeToken symbols token symbol' → symbol = symbol'
  split : ∀ {token multiple multiple' symbol symbol'},
    SplitToken multiples symbols token multiple symbol →
    SplitToken multiples symbols token multiple' symbol' → multiple = multiple' ∧ symbol = symbol'

section Search

variable {multiples : List Multiple} {symbols : List UnitSymbol} {token : List Char}
  {meaning meaning' : Float × Dimension}

theorem whole_of_find? {symbol : UnitSymbol}
    (found : symbols.find? (fun symbol => symbol.name.toList == token) = some symbol) :
    WholeToken symbols token symbol := by
  have same := List.find?_some found
  exact ⟨List.mem_of_find?_eq_some found, beq_iff_eq.mp same⟩

theorem find?_eq_none_iff_whole :
    symbols.find? (fun symbol => symbol.name.toList == token) = none ↔
      ∀ symbol, ¬ WholeToken symbols token symbol := by
  rw [List.find?_eq_none]
  exact ⟨fun absent symbol whole => absent symbol whole.known (beq_iff_eq.mpr whole.written),
    fun absent symbol known same => absent symbol ⟨known, beq_iff_eq.mp same⟩⟩

theorem split_of_resolve? {multiple : Multiple} (known : multiple ∈ multiples)
    (found : multiple.resolve? symbols token = some meaning) :
    ∃ symbol, SplitToken multiples symbols token multiple symbol ∧
      meaning = (multiple.factor * symbol.scale, symbol.dimension) := by
  obtain ⟨rest, cut, found⟩ := Option.bind_eq_some_iff.mp found
  obtain ⟨symbol, hit, found⟩ := Option.bind_eq_some_iff.mp found
  cases found
  have fitting := List.find?_some hit
  obtain ⟨takes, same⟩ := Bool.and_eq_true_iff.mp fitting
  have written := List.isPrefixOf?_eq_some_iff_append_eq.mp cut
  rw [← beq_iff_eq.mp same] at written
  exact ⟨symbol, ⟨known, List.mem_of_find?_eq_some hit, takes, written⟩, rfl⟩

theorem SplitToken.resolve?_isSome {multiple : Multiple} {symbol : UnitSymbol}
    (split : SplitToken multiples symbols token multiple symbol) :
    (multiple.resolve? symbols token).isSome = true := by
  have cut := List.isPrefixOf?_eq_some_iff_append_eq.mpr split.written
  have present : (symbols.find? fun other =>
      other.takesMultiple && other.name.toList == symbol.name.toList).isSome = true := by
    rw [List.find?_isSome]
    exact ⟨symbol, split.symbol_known, by rw [split.takes, beq_self_eq_true, Bool.and_true]⟩
  obtain ⟨first, hit⟩ := Option.isSome_iff_exists.mp present
  rw [Multiple.resolve?, cut, Option.bind_eq_bind, Option.bind_some, hit]
  rfl

/-- What the search answers is a meaning of the token, in tables of any kind. -/
theorem resolved_of_resolveIn (found : resolveIn multiples symbols token = some meaning) :
    Resolved multiples symbols token meaning := by
  unfold resolveIn at found
  split at found
  · rename_i symbol hit
    cases found
    exact .whole (whole_of_find? hit)
  · rename_i absent
    obtain ⟨multiple, known, hit⟩ := List.exists_of_findSome?_eq_some found
    obtain ⟨symbol, split, rfl⟩ := split_of_resolve? known hit
    exact .split (find?_eq_none_iff_whole.mp absent) split

/-- A token with a meaning is found, in tables of any kind. -/
theorem Resolved.isSome (resolved : Resolved multiples symbols token meaning) :
    (resolveIn multiples symbols token).isSome = true := by
  unfold resolveIn
  cases resolved with
  | whole whole =>
    split
    · rfl
    · rename_i absent
      exact absurd whole (find?_eq_none_iff_whole.mp absent _)
  | split unnamed split =>
    rw [find?_eq_none_iff_whole.mpr unnamed]
    exact List.findSome?_isSome_iff.mpr ⟨_, split.multiple_known, split.resolve?_isSome⟩

theorem Resolved.unique (tables : Unambiguous multiples symbols)
    (resolved : Resolved multiples symbols token meaning)
    (resolved' : Resolved multiples symbols token meaning') : meaning = meaning' := by
  cases resolved with
  | whole whole =>
    cases resolved' with
    | whole whole' => rw [tables.whole whole whole']
    | split unnamed _ => exact absurd whole (unnamed _)
  | split unnamed split =>
    cases resolved' with
    | whole whole => exact absurd whole (unnamed _)
    | split _ split' =>
      obtain ⟨rfl, rfl⟩ := tables.split split split'
      rfl

/-- In unambiguous tables the search answers the one meaning of a token. -/
theorem resolveIn_eq_some_iff (tables : Unambiguous multiples symbols) :
    resolveIn multiples symbols token = some meaning ↔ Resolved multiples symbols token meaning := by
  refine ⟨resolved_of_resolveIn, fun resolved => ?_⟩
  obtain ⟨first, found⟩ := Option.isSome_iff_exists.mp resolved.isSome
  rw [found, (resolved_of_resolveIn found).unique tables resolved]

end Search

section Order

variable {multiples multiples' : List Multiple} {symbols symbols' : List UnitSymbol} {token : List Char}

theorem wholeToken_perm (order : symbols.Perm symbols') {symbol : UnitSymbol} :
    WholeToken symbols token symbol ↔ WholeToken symbols' token symbol :=
  ⟨fun whole => ⟨order.mem_iff.mp whole.known, whole.written⟩,
    fun whole => ⟨order.mem_iff.mpr whole.known, whole.written⟩⟩

theorem SplitToken.perm {multiple : Multiple} {symbol : UnitSymbol}
    (split : SplitToken multiples symbols token multiple symbol) (orderM : multiples.Perm multiples')
    (orderS : symbols.Perm symbols') : SplitToken multiples' symbols' token multiple symbol :=
  ⟨orderM.mem_iff.mp split.multiple_known, orderS.mem_iff.mp split.symbol_known, split.takes, split.written⟩

theorem Resolved.perm {meaning : Float × Dimension} (resolved : Resolved multiples symbols token meaning)
    (orderM : multiples.Perm multiples') (orderS : symbols.Perm symbols') :
    Resolved multiples' symbols' token meaning := by
  cases resolved with
  | whole whole => exact .whole ((wholeToken_perm orderS).mp whole)
  | split unnamed split =>
    exact .split (fun named => mt (wholeToken_perm orderS).mpr (unnamed named)) (split.perm orderM orderS)

theorem Unambiguous.perm (tables : Unambiguous multiples symbols) (orderM : multiples.Perm multiples')
    (orderS : symbols.Perm symbols') : Unambiguous multiples' symbols' where
  whole first second :=
    tables.whole ((wholeToken_perm orderS).mpr first) ((wholeToken_perm orderS).mpr second)
  split first second :=
    tables.split (first.perm orderM.symm orderS.symm) (second.perm orderM.symm orderS.symm)

/-- The order of unambiguous tables cannot be observed. -/
theorem resolveIn_perm (tables : Unambiguous multiples symbols) (orderM : multiples.Perm multiples')
    (orderS : symbols.Perm symbols') (token : List Char) :
    resolveIn multiples' symbols' token = resolveIn multiples symbols token := by
  apply Option.ext
  intro meaning
  rw [resolveIn_eq_some_iff tables, resolveIn_eq_some_iff (tables.perm orderM orderS)]
  exact ⟨fun resolved => resolved.perm orderM.symm orderS.symm, fun resolved => resolved.perm orderM orderS⟩

end Order

/-- Only the multiple for ten starts with another multiple, and one letter is left of it. -/
theorem Multiple.eq_or_letter_left : ∀ p ∈ table, ∀ q ∈ table, p.name.toList <+: q.name.toList →
    p.name = q.name ∨ q.name.toList = p.name.toList ++ ['a'] := by
  decide

/-- No symbol starts with that letter. -/
theorem UnitSymbol.head_ne : ∀ symbol ∈ table, symbol.name.toList.head? ≠ some 'a' := by
  decide

theorem Multiple.eq_of_name {p q : Multiple} (left : p ∈ table) (right : q ∈ table)
    (same : p.name = q.name) : p = q :=
  List.inj_on_of_nodup_map (f := Multiple.name) (by decide) left right same

theorem UnitSymbol.eq_of_name {a b : UnitSymbol} (left : a ∈ table) (right : b ∈ table)
    (same : a.name = b.name) : a = b :=
  List.inj_on_of_nodup_map (f := UnitSymbol.name) (by decide) left right same

/-- Of two multiples with a symbol behind each, the longer one starts with the
shorter one, and the symbol behind the shorter one starts with what is left of it. -/
theorem multiple_name_eq {p q : Multiple} {a b : UnitSymbol} (left : p ∈ Multiple.table)
    (right : q ∈ Multiple.table) (symbol : a ∈ UnitSymbol.table)
    (same : p.name.toList ++ a.name.toList = q.name.toList ++ b.name.toList)
    (shorter : p.name.toList <+: q.name.toList) : p.name = q.name := by
  rcases Multiple.eq_or_letter_left p left q right shorter with equal | longer
  · exact equal
  · rw [longer, List.append_assoc, List.append_cancel_left_eq] at same
    have start : a.name.toList.head? = some 'a' := by
      rw [same]
      rfl
    exact absurd start (UnitSymbol.head_ne a symbol)

theorem table_unambiguous : Unambiguous Multiple.table UnitSymbol.table where
  whole first second := by
    refine UnitSymbol.eq_of_name first.known second.known (String.toList_inj.mp ?_)
    rw [first.written, second.written]
  split := by
    intro token p q a b first second
    have same : p.name.toList ++ a.name.toList = q.name.toList ++ b.name.toList := by
      rw [first.written, second.written]
    have multiples : p.name = q.name := by
      rcases List.prefix_or_prefix_of_prefix (List.prefix_append _ a.name.toList)
        (same ▸ List.prefix_append _ b.name.toList) with shorter | shorter
      · exact multiple_name_eq first.multiple_known second.multiple_known first.symbol_known same shorter
      · exact (multiple_name_eq second.multiple_known first.multiple_known second.symbol_known same.symm
          shorter).symm
    rw [multiples, List.append_cancel_left_eq] at same
    exact ⟨Multiple.eq_of_name first.multiple_known second.multiple_known multiples,
      UnitSymbol.eq_of_name first.symbol_known second.symbol_known (String.toList_inj.mp same)⟩

/-- A token is resolved just if it names a symbol or is a multiple with a symbol
behind it. The name of a symbol stands for that symbol. Every other token is split
in one way at most and stands for that multiple of that symbol. In whatever order
the tables are searched, the answer is the same. -/
theorem resolveSymbol_unambiguous (token : List Char) :
    ((resolveSymbol token).isSome = true ↔
      (∃ symbol, WholeToken UnitSymbol.table token symbol) ∨
        ∃ multiple symbol, SplitToken Multiple.table UnitSymbol.table token multiple symbol) ∧
    (∀ symbol, WholeToken UnitSymbol.table token symbol →
      resolveSymbol token = some (symbol.scale, symbol.dimension)) ∧
    ((∀ named, ¬ WholeToken UnitSymbol.table token named) →
      ∀ multiple symbol, SplitToken Multiple.table UnitSymbol.table token multiple symbol →
        resolveSymbol token = some (multiple.factor * symbol.scale, symbol.dimension) ∧
          ∀ multiple' symbol', SplitToken Multiple.table UnitSymbol.table token multiple' symbol' →
            multiple' = multiple ∧ symbol' = symbol) ∧
    ∀ multiples symbols, multiples.Perm Multiple.table → symbols.Perm UnitSymbol.table →
      resolveIn multiples symbols token = resolveSymbol token := by
  have meaning {x : Float × Dimension} : Resolved Multiple.table UnitSymbol.table token x →
      resolveSymbol token = some x := (resolveIn_eq_some_iff table_unambiguous).mpr
  refine ⟨⟨fun some => ?_, ?_⟩, fun symbol whole => meaning (.whole whole), ?_, ?_⟩
  · obtain ⟨x, found⟩ := Option.isSome_iff_exists.mp some
    cases resolved_of_resolveIn found with
    | whole whole => exact Or.inl ⟨_, whole⟩
    | split _ split => exact Or.inr ⟨_, _, split⟩
  · by_cases named : ∃ symbol, WholeToken UnitSymbol.table token symbol
    · obtain ⟨symbol, whole⟩ := named
      exact fun _ => Resolved.isSome (.whole whole)
    · rintro (whole | ⟨multiple, symbol, split⟩)
      · exact absurd whole named
      · exact Resolved.isSome (.split (not_exists.mp named) split)
  · intro unnamed multiple symbol split
    exact ⟨meaning (.split unnamed split), fun _ _ other => table_unambiguous.split other split⟩
  · intro multiples symbols orderM orderS
    exact resolveIn_perm table_unambiguous orderM.symm orderS.symm token

/-- The multiple for ten does not have to stand in front of the one for a tenth. -/
example : resolveIn Multiple.table.reverse UnitSymbol.table.reverse "dam".toList = some (10.0, { m := 1 }) := by
  decide +kernel

end Mensura
