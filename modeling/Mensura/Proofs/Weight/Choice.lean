import Mathlib.Data.List.Forall2
import Mathlib.Data.List.Lattice
import Mathlib.Data.List.Nodup
import Mathlib.Data.List.Pairwise
import Mensura.Proofs.Buffer.Addressing
import Mensura.Proofs.Except
import Mensura.Proofs.Weight.Outcome
import Mensura.Weight.Schedule

namespace Mensura

namespace WeightKernel

/-- All names that a kernel answers to. -/
def names (kernel : WeightKernel) : List String :=
  kernel.name :: kernel.aliases

theorem answersTo_iff {kernel : WeightKernel} {name : String} :
    kernel.answersTo name = true ↔ name ∈ kernel.names := by
  rw [answersTo, Bool.or_eq_true, beq_iff_eq, List.contains_iff_mem, names, List.mem_cons]
  exact or_congr_left eq_comm

/-- A name or an alias of a registered kernel. -/
def Registered (name : String) : Prop :=
  ∃ kernel ∈ registered, kernel.answersTo name = true

instance (name : String) : Decidable (Registered name) :=
  inferInstanceAs (Decidable (∃ kernel, kernel ∈ registered ∧ _))

theorem names_nodup : (registered.flatMap names).Nodup := by
  decide

/-- No name or alias is shared, so the first kernel that answers is the only one. -/
theorem eq_of_answersTo {a b : WeightKernel} {name : String} (left : a ∈ registered)
    (right : b ∈ registered) (answersLeft : a.answersTo name = true)
    (answersRight : b.answersTo name = true) : a = b := by
  by_contra different
  have apart := (List.nodup_flatMap.mp names_nodup).2
  have : Std.Symm (Function.onFun List.Disjoint names) := ⟨fun _ _ => List.Disjoint.symm⟩
  have disjoint := apart.forall left right different
  exact List.disjoint_left.mp disjoint (answersTo_iff.mp answersLeft) (answersTo_iff.mp answersRight)

theorem find?_eq_of_perm {α : Type} {p : α → Bool} {xs ys : List α} (perm : xs.Perm ys)
    (unique : ∀ a ∈ xs, ∀ b ∈ xs, p a = true → p b = true → a = b) : xs.find? p = ys.find? p := by
  cases found : ys.find? p with
  | none =>
    rw [List.find?_eq_none] at found ⊢
    exact fun a member => found a (perm.mem_iff.mp member)
  | some b =>
    have inside : b ∈ xs := perm.mem_iff.mpr (List.mem_of_find?_eq_some found)
    have holds := List.find?_some found
    obtain ⟨a, first⟩ := Option.isSome_iff_exists.mp (List.find?_isSome.mpr ⟨b, inside, holds⟩)
    rw [first, unique a (List.mem_of_find?_eq_some first) b inside (List.find?_some first) holds]

variable {kernels : List WeightKernel}

/-- The order of the kernels does not matter for the one that is found. -/
theorem findIn_eq_find (order : kernels.Perm registered) (name : String) :
    findIn kernels name = find name := by
  have same : kernels.find? (·.answersTo name) = registered.find? (·.answersTo name) :=
    find?_eq_of_perm order fun _ left _ right =>
      eq_of_answersTo (order.mem_iff.mp left) (order.mem_iff.mp right)
  rw [find, findIn, findIn, same]

theorem find_registered {name : String} (known : Registered name) :
    ∃ kernel ∈ registered, find name = .ok kernel := by
  obtain ⟨kernel, member, answers⟩ := known
  have some : (registered.find? (·.answersTo name)).isSome = true :=
    List.find?_isSome.mpr ⟨kernel, member, answers⟩
  obtain ⟨first, found⟩ := Option.isSome_iff_exists.mp some
  exact ⟨first, List.mem_of_find?_eq_some found, by rw [find, findIn, found]⟩

theorem find_unknown {name : String} (unknown : ¬ Registered name) :
    find name = .error (.unknownKernel name) := by
  have none : registered.find? (·.answersTo name) = none :=
    List.find?_eq_none.mpr fun kernel member answers => unknown ⟨kernel, member, answers⟩
  rw [find, findIn, none]

theorem eq_of_name_eq {a b : WeightKernel} (left : a ∈ registered) (right : b ∈ registered)
    (same : a.name = b.name) : a = b :=
  eq_of_answersTo left right (answersTo_iff.mpr (List.mem_cons_self ..))
    (answersTo_iff.mpr (same ▸ List.mem_cons_self ..))

/-- The kernels by name are the same list in whatever order they are registered. -/
theorem sorted_eq (order : kernels.Perm registered) : sorted kernels = [indexed, lockstep, pipeline] := by
  have ascending : (sorted kernels).Pairwise fun a b => decide (a.name ≤ b.name) = true := by
    refine List.pairwise_mergeSort ?_ ?_ kernels
    · intro a b c first second
      exact decide_eq_true (String.le_trans (of_decide_eq_true first) (of_decide_eq_true second))
    · intro a b
      rw [Bool.or_eq_true, decide_eq_true_eq, decide_eq_true_eq]
      exact String.le_total a.name b.name
  have reversed : registered.Perm [indexed, lockstep, pipeline] := (List.reverse_perm registered).symm
  have perm : (sorted kernels).Perm registered := (List.mergeSort_perm kernels _).trans order
  refine List.Perm.eq_of_pairwise ?_ ascending (by decide) (perm.trans reversed)
  intro a b left right first second
  refine eq_of_name_eq (perm.mem_iff.mp left) (reversed.mem_iff.mpr right) ?_
  exact String.le_antisymm (of_decide_eq_true first) (of_decide_eq_true second)

end WeightKernel

namespace Weight

open WeightKernel

variable {kernels : List WeightKernel}

theorem computeWith_eq (order : kernels.Perm registered) (m g f : Buffer) (method : String) :
    computeWith kernels m g f method = compute m g f method := by
  rw [compute, computeWith, computeWith, findIn_eq_find order]
  rfl

/-- Every name of every kernel stands for the same computation. -/
theorem compute_registered {method : String} (known : Registered method) (m g f : Buffer) :
    compute m g f method = indexed m g f := by
  obtain ⟨kernel, member, found⟩ := find_registered known
  rw [compute, computeWith, ← find, found]
  exact run_eq_indexed member m g f

theorem compute_unknown {method : String} (unknown : ¬ Registered method) (m g f : Buffer) :
    compute m g f method = ⟨.error (.unknownKernel method), f⟩ := by
  rw [compute, computeWith, ← find, find_unknown unknown]

end Weight

/-- Two names that stand for the same computation: both are names of kernels, or
they are equal. -/
def WeightKernel.Interchangeable (a b : String) : Prop :=
  (Registered a ∧ Registered b) ∨ a = b

theorem Weight.compute_interchangeable {a b : String} (either : WeightKernel.Interchangeable a b)
    (m g f : Buffer) : compute m g f a = compute m g f b := by
  rcases either with ⟨left, right⟩ | same
  · rw [compute_registered left, compute_registered right]
  · rw [same]

theorem BufferSource.over_cells {source : BufferSource} {cells : Array Float} {b : Buffer}
    (made : source.over cells = .ok b) : b.cells = cells := by
  rw [BufferSource.over, bind_eq_ok_iff] at made
  obtain ⟨unit, _, made⟩ := made
  split at made
  · cases made
    rfl
  · exact (Buffer.strided_eq_ok (mapError_eq_ok_iff.mp made)).1

namespace WeightCall

variable {kernels kernels' : List WeightKernel} {storages : Array (Array Float)}

/-- The same call with another name in the place of its method. -/
structure Reassigned (call call' : WeightCall) : Prop where
  mass : call.mass = call'.mass
  acceleration : call.acceleration = call'.acceleration
  force : call.force = call'.force
  method : WeightKernel.Interchangeable call.method call'.method

/-- The three buffers of a call over storages. -/
structure Opens (storages : Array (Array Float)) (call : WeightCall) (m g f : Buffer) : Prop where
  mass : openBuffer storages call.mass = .ok m
  acceleration : openBuffer storages call.acceleration = .ok g
  force : openBuffer storages call.force = .ok f

theorem apply_reassigned (order : kernels.Perm WeightKernel.registered)
    (order' : kernels'.Perm WeightKernel.registered) {call call' : WeightCall}
    (same : call.Reassigned call') (storages : Array (Array Float)) :
    call.apply kernels storages = call'.apply kernels' storages := by
  have computed (m g f : Buffer) : Weight.computeWith kernels m g f call.method =
      Weight.computeWith kernels' m g f call'.method := by
    rw [Weight.computeWith_eq order, Weight.computeWith_eq order',
      Weight.compute_interchangeable same.method]
  simp only [apply, same.mass, same.acceleration, same.force, computed]

/-- A script with other names for its kernels gives the same results and the
same storages after every call, as a call sees nothing of the calls before it
but the storages. -/
theorem run_reassigned (order : kernels.Perm WeightKernel.registered)
    (order' : kernels'.Perm WeightKernel.registered) {calls calls' : List WeightCall}
    (same : List.Forall₂ Reassigned calls calls') (storages : Array (Array Float)) :
    run kernels storages calls = run kernels' storages calls' := by
  induction same generalizing storages with
  | nil => rfl
  | cons first _ ih => rw [run, run, apply_reassigned order order' first, ih]

theorem setIfInBounds_own (storages : Array (Array Float)) (i : Nat) :
    storages.setIfInBounds i (storages.getD i #[]) = storages := by
  by_cases inside : i < storages.size
  · rw [Array.getD, dif_pos inside, Array.setIfInBounds, dif_pos inside]
    exact Array.set_getElem_self inside
  · rw [Array.setIfInBounds, dif_neg inside]

/-- A call that names no kernel leaves the storages as they are. If its buffers
can be made, it answers that the kernel is unknown, whatever the buffers are. -/
theorem apply_unknown (order : kernels.Perm WeightKernel.registered) {call : WeightCall}
    (unknown : ¬ WeightKernel.Registered call.method) (storages : Array (Array Float)) :
    (call.apply kernels storages).2 = storages ∧
      ∀ m g f, call.Opens storages m g f →
        (call.apply kernels storages).1 = .error (.kernel (.unknownKernel call.method)) := by
  have computed (m g f : Buffer) : Weight.computeWith kernels m g f call.method =
      ⟨.error (.unknownKernel call.method), f⟩ := by
    rw [Weight.computeWith_eq order, Weight.compute_unknown unknown]
  constructor
  · rw [apply]
    dsimp only
    split
    · rfl
    · rename_i m g f opened
      rw [computed]
      obtain ⟨_, _, opened⟩ := bind_eq_ok_iff.mp opened
      obtain ⟨_, _, opened⟩ := bind_eq_ok_iff.mp opened
      obtain ⟨_, made, opened⟩ := bind_eq_ok_iff.mp opened
      cases opened
      rw [BufferSource.over_cells made, setIfInBounds_own]
  · intro m g f opens
    simp only [apply, opens.mass, opens.acceleration, opens.force, bind, Except.bind, pure,
      Except.pure, computed]
    rfl

/-- Which kernel a call names cannot be observed over any script, and neither
can the order in which the kernels are registered. A name that no kernel has is
refused before anything is looked at, and nothing is written. -/
theorem run_kernel_unobservable {kernels kernels' : List WeightKernel}
    (order : kernels.Perm WeightKernel.registered) (order' : kernels'.Perm WeightKernel.registered) :
    (∀ storages calls calls', List.Forall₂ Reassigned calls calls' →
      run kernels storages calls = run kernels' storages calls') ∧
    (∀ m g f method, ¬ WeightKernel.Registered method →
      Weight.computeWith kernels m g f method = ⟨.error (.unknownKernel method), f⟩) ∧
    (∀ storages (call : WeightCall), ¬ WeightKernel.Registered call.method →
      (call.apply kernels storages).2 = storages ∧
        ∀ m g f, call.Opens storages m g f →
          (call.apply kernels storages).1 = .error (.kernel (.unknownKernel call.method))) ∧
    (∀ name, WeightKernel.findIn kernels name = WeightKernel.findIn kernels' name) ∧
    WeightKernel.sorted kernels = WeightKernel.sorted kernels' ∧
    WeightKernel.sorted kernels = [.indexed, .lockstep, .pipeline] := by
  refine ⟨fun storages _ _ same => run_reassigned order order' same storages, ?_, ?_, ?_, ?_, ?_⟩
  · intro m g f method unknown
    rw [Weight.computeWith_eq order, Weight.compute_unknown unknown]
  · exact fun storages call unknown => apply_unknown order unknown storages
  · intro name
    rw [WeightKernel.findIn_eq_find order, WeightKernel.findIn_eq_find order']
  · rw [WeightKernel.sorted_eq order, WeightKernel.sorted_eq order']
  · exact WeightKernel.sorted_eq order

/-- Weights of the masses of one storage, written to every second cell of another. -/
def spaced (masses forces : Nat) (method : String) : WeightCall where
  mass := ⟨masses, .written "kg", some (2, 1)⟩
  acceleration := ⟨1, .written "m s^-2", none⟩
  force := ⟨forces, .written "N", some (2, 2)⟩
  method := method

theorem run_kernel_unobservable_feedback :
    WeightKernel.registered.reverse.Perm WeightKernel.registered ∧
      WeightKernel.registered.Perm WeightKernel.registered ∧
      List.Forall₂ Reassigned [spaced 0 2 "rac", spaced 2 0 "iter"]
        [spaced 0 2 "indexed", spaced 2 0 "pipeline"] ∧
      run WeightKernel.registered.reverse #[#[1.0, 2.0, 3.0], #[9.81], #[0.0, 0.0, 0.0]]
          [spaced 0 2 "rac", spaced 2 0 "iter"] =
        run WeightKernel.registered #[#[1.0, 2.0, 3.0], #[9.81], #[0.0, 0.0, 0.0]]
          [spaced 0 2 "indexed", spaced 2 0 "pipeline"] ∧
      ¬ WeightKernel.Registered "simd" ∧
      Weight.computeWith WeightKernel.registered.reverse (.whole #[] (.canonical .length))
          (.whole #[] (.canonical .length)) (.whole #[7.0] (.canonical .length)) "simd" =
        ⟨.error (.unknownKernel "simd"), .whole #[7.0] (.canonical .length)⟩ := by
  have reversed := List.reverse_perm WeightKernel.registered
  have same : List.Forall₂ Reassigned [spaced 0 2 "rac", spaced 2 0 "iter"]
      [spaced 0 2 "indexed", spaced 2 0 "pipeline"] :=
    .cons ⟨rfl, rfl, rfl, Or.inl (by decide)⟩ (.cons ⟨rfl, rfl, rfl, Or.inl (by decide)⟩ .nil)
  have unknown : ¬ WeightKernel.Registered "simd" := by decide
  obtain ⟨agreed, refused, _⟩ := run_kernel_unobservable reversed (.refl _)
  exact ⟨reversed, .refl _, same, agreed _ _ _ same, unknown, refused _ _ _ _ unknown⟩

end WeightCall

end Mensura
