import Corewise.Proofs.Effect
import Corewise.Proofs.Kernel
/-!
What the compiler promises of its artifacts. A call signature that has passed the check has one
operand for each of the core signature, of the rank that the loop hands over.
-/

namespace Corewise

/-- A kernel operand as the compiler lets it pass for a core of `rank` axes. -/
inductive FitsCore : Nat → OperandType → Prop
  | scalar (dtype : DType) : FitsCore 0 (.scalar dtype)
  | array (dtype : DType) (layout : Layout) {rank : Nat} (pos : rank ≠ 0) :
      FitsCore rank (.array dtype rank layout)

theorem FitsCore.element {rank : Nat} {type : OperandType} (h : FitsCore rank type) :
    ∃ dtype, type.element? = some dtype := by
  cases h with
  | scalar dtype => exact ⟨dtype, rfl⟩
  | array dtype layout pos => exact ⟨dtype, rfl⟩

/-- The ranks of the kernel's operands: those of the cores, with an array for the output even where
its core is empty. -/
def CoreSignature.kernelRanks (s : CoreSignature) : List Nat := s.inputRanks ++ [s.carrierRank]

theorem CoreSignature.length_kernelRanks (s : CoreSignature) :
    s.kernelRanks.length = s.arity + 1 := by
  simp [kernelRanks, inputRanks, arity]

theorem CoreSignature.carrierRank_pos (s : CoreSignature) : 0 < s.carrierRank :=
  Nat.lt_of_lt_of_le Nat.one_pos (Nat.le_max_right _ _)

namespace Compiler

theorem fitsInput_iff {rank : Nat} {type : OperandType} :
    fitsInput rank type = true ↔ FitsCore rank type := by
  constructor
  case mp =>
    intro h
    unfold fitsInput at h
    split at h
    case h_1 dtype =>
      cases eq_of_beq h
      exact .scalar dtype
    case h_2 dtype r layout =>
      obtain ⟨hr, hpos⟩ := Bool.and_eq_true_iff.1 h
      obtain rfl := eq_of_beq hr
      exact .array dtype layout (by simpa using hpos)
    case h_3 => cases h
  case mpr =>
    intro h
    cases h with
    | scalar dtype => rfl
    | array dtype layout hpos => simp [fitsInput, hpos]

theorem checkInputs_eq_ok {ranks : List Nat} {args : List OperandType} :
    checkInputs ranks args = .ok () ↔
      ∀ (i : Nat) rank type, ranks[i]? = some rank → args[i]? = some type → FitsCore rank type := by
  have hmem (type : OperandType) (rank i : Nat) : ((type, rank), i) ∈ (args.zip ranks).zipIdx ↔
      args[i]? = some type ∧ ranks[i]? = some rank := by
    rw [List.mem_zipIdx_iff_getElem?, List.getElem?_zip_eq_some]
  unfold checkInputs
  split
  case h_1 type rank position hsome =>
    have hunfit := List.find?_some hsome
    obtain ⟨htype, hrank⟩ := (hmem ..).1 (List.mem_of_find?_eq_some hsome)
    refine ⟨nofun, fun h => ?_⟩
    rw [fitsInput_iff.2 (h position rank type hrank htype)] at hunfit
    cases hunfit
  case h_2 hnone =>
    refine ⟨fun _ i rank type hrank htype => ?_, fun _ => rfl⟩
    have hfits := List.find?_eq_none.1 hnone _ ((hmem ..).2 ⟨htype, hrank⟩)
    apply fitsInput_iff.1
    simpa using hfits

theorem checkOutput_eq_ok {rank : Nat} {output : Option OperandType} :
    checkOutput rank output = .ok () ↔
      ∃ dtype layout, output = some (.array dtype rank layout) := by
  constructor
  case mp =>
    intro h
    unfold checkOutput at h
    split at h
    case h_1 dtype r layout =>
      split at h
      case isTrue hr => exact ⟨dtype, layout, by rw [hr]⟩
      case isFalse => cases h
    case h_2 => cases h
  case mpr =>
    rintro ⟨dtype, layout, rfl⟩
    exact if_pos rfl

/-- What has been checked of a call signature. -/
structure Checked (signature : CoreSignature) (call : CallSignature) : Prop where
  void : call.returnType = .none
  count : call.args.length = signature.arity + 1
  fits : ∀ (i : Nat) rank type, signature.kernelRanks[i]? = some rank → call.args[i]? = some type →
    FitsCore rank type
  bound : signature.unboundOutputs = []

theorem Checked.inputs {signature : CoreSignature} {call : CallSignature}
    (h : Checked signature call) : checkInputs signature.inputRanks call.args = .ok () := by
  refine checkInputs_eq_ok.2 fun i rank type hrank htype => h.fits i rank type ?_ htype
  rw [CoreSignature.kernelRanks, List.getElem?_append_left (List.getElem?_eq_some_iff.1 hrank).1]
  exact hrank

theorem Checked.output {signature : CoreSignature} {call : CallSignature}
    (h : Checked signature call) : checkOutput signature.carrierRank call.args.getLast? = .ok () := by
  have hrank : signature.kernelRanks[signature.arity]? = some signature.carrierRank := by
    rw [CoreSignature.kernelRanks, show signature.arity = signature.inputRanks.length from
      (List.length_map _).symm, List.getElem?_concat_length]
  obtain ⟨type, htype⟩ : ∃ type, call.args[signature.arity]? = some type :=
    ⟨_, List.getElem?_eq_getElem (by rw [h.count]; exact Nat.lt_succ_self _)⟩
  rw [List.getLast?_eq_getElem?, h.count, Nat.add_sub_cancel, htype]
  apply checkOutput_eq_ok.2
  have hfits := h.fits _ _ _ hrank htype
  have hpos := signature.carrierRank_pos
  generalize signature.carrierRank = rank at hfits hpos
  cases hfits with
  | scalar => exact absurd hpos (Nat.lt_irrefl 0)
  | array dtype layout => exact ⟨dtype, layout, rfl⟩

theorem check_eq_ok {signature : CoreSignature} {call : CallSignature} :
    check signature call = .ok () ↔ Checked signature call := by
  constructor
  case mp =>
    intro h
    unfold check at h
    by_cases hvoid : call.returnType ≠ .none
    case pos =>
      rw [if_pos hvoid] at h
      cases h
    rw [if_neg hvoid] at h
    dsimp only at h
    by_cases hcount : call.args.length ≠ signature.arity + 1
    case pos =>
      rw [if_pos hcount] at h
      cases h
    rw [if_neg hcount] at h
    obtain ⟨⟨⟩, hinputs, h⟩ := Effect.bind_eq_ok.1 h
    obtain ⟨⟨⟩, houtput, h⟩ := Effect.bind_eq_ok.1 h
    by_cases hbound : signature.unboundOutputs ≠ []
    case pos =>
      rw [if_pos hbound] at h
      cases h
    replace hcount := Decidable.not_not.1 hcount
    refine ⟨Decidable.not_not.1 hvoid, hcount, ?_, Decidable.not_not.1 hbound⟩
    intro i rank type hrank htype
    have hlength : signature.inputRanks.length = signature.arity := List.length_map _
    rcases Nat.lt_or_ge i signature.arity with hlt | hge
    · rw [CoreSignature.kernelRanks, List.getElem?_append_left (hlength ▸ hlt)] at hrank
      exact checkInputs_eq_ok.1 hinputs i rank type hrank htype
    · have hlast : i = signature.arity := by
        have hi := (List.getElem?_eq_some_iff.1 htype).1
        omega
      subst hlast
      obtain ⟨dtype, layout, houtput⟩ := checkOutput_eq_ok.1 houtput
      rw [List.getLast?_eq_getElem?, hcount, Nat.add_sub_cancel, htype] at houtput
      rw [CoreSignature.kernelRanks, List.getElem?_append_right (Nat.le_of_eq hlength), hlength,
        Nat.sub_self] at hrank
      cases houtput
      cases hrank
      exact .array dtype layout (Nat.ne_of_gt signature.carrierRank_pos)
  case mpr =>
    intro h
    unfold check
    rw [if_neg (not_not_intro h.void)]
    dsimp only
    rw [if_neg (not_not_intro h.count)]
    refine Effect.bind_eq_ok.2 ⟨(), h.inputs, Effect.bind_eq_ok.2 ⟨(), h.output, ?_⟩⟩
    exact if_neg (not_not_intro h.bound)

/-- Whether a kernel can be bound depends on how it takes its operands, and on nothing else of it. -/
theorem exists_bind_eq_ok {kernel : Kernel} {options : Options} :
    (∃ body, bind kernel options = .ok body) ↔
      ¬ (kernel.isObject = true ∧ options.nativeOnly = true) := by
  obtain ⟨name, doc, body, identity⟩ := kernel
  cases body with
  | native body =>
    refine ⟨fun _ hobject => Bool.false_ne_true hobject.1, fun _ => ?_⟩
    show ∃ entry, (if options.forceObject then _ else _) = Except.ok entry
    split <;> exact ⟨_, rfl⟩
  | object body =>
    show (∃ entry, (if options.nativeOnly then _ else _) = Except.ok entry) ↔ _
    split
    case isTrue honly => exact ⟨nofun, fun hallowed => absurd ⟨rfl, honly⟩ hallowed⟩
    case isFalse honly => exact ⟨fun _ hobject => honly hobject.2, fun _ => ⟨_, rfl⟩⟩

theorem entry_eq_ok {recipe : Recipe} {call : CallSignature} {body : Body}
    (h : entry recipe call = .ok body) :
    Checked recipe.signature call ∧ body.call = recipe.kernel.body.call := by
  obtain ⟨⟨⟩, hcheck, hbind⟩ := Effect.bind_eq_ok.1 h
  exact ⟨check_eq_ok.1 hcheck, bind_call hbind⟩

end Compiler

/-- An artifact that the compiler may have made by the recipe. -/
structure Artifact.Serves (recipe : Recipe) (a : Artifact) : Prop where
  checked : Compiler.Checked recipe.signature a.signature
  call : a.entry.call = recipe.kernel.body.call

namespace Compiler

/-- The compiler has nothing against the call signature. -/
def Takes (recipe : Recipe) (call : CallSignature) : Prop := ∃ body, entry recipe call = .ok body

/-- What the compiler takes is up to the two signatures, and to whether the kernel works on objects where
that is ruled out. -/
theorem takes_iff {recipe : Recipe} {call : CallSignature} : Takes recipe call ↔
    Checked recipe.signature call ∧
      ¬ (recipe.kernel.isObject = true ∧ recipe.options.nativeOnly = true) := by
  rw [← check_eq_ok, ← exists_bind_eq_ok]
  constructor
  case mp =>
    rintro ⟨body, hbody⟩
    obtain ⟨⟨⟩, hcheck, hbind⟩ := Effect.bind_eq_ok.1 hbody
    exact ⟨hcheck, body, hbind⟩
  case mpr =>
    rintro ⟨hcheck, body, hbind⟩
    exact ⟨body, Effect.bind_eq_ok.2 ⟨(), hcheck, hbind⟩⟩

theorem Takes.checked {recipe : Recipe} {call : CallSignature} (h : Takes recipe call) :
    Checked recipe.signature call := (takes_iff.1 h).1

theorem Takes.compile {recipe : Recipe} {call : CallSignature} (h : Takes recipe call)
    (engine : Engine) : ∃ artifact, compile recipe call engine =
      (.ok artifact, { engine with compilations := engine.compilations + 1 }) := by
  obtain ⟨body, hbody⟩ := h
  rw [Compiler.compile, hbody]
  exact ⟨_, rfl⟩

theorem compile_eq_ok {recipe : Recipe} {call : CallSignature} {engine engine' : Engine}
    {a : Artifact} (h : compile recipe call engine = (.ok a, engine')) :
    a.Serves recipe ∧ a.signature = call ∧
      engine' = { engine with compilations := engine.compilations + 1 } := by
  unfold compile at h
  split at h
  case h_1 => cases h
  case h_2 body hbody =>
    obtain ⟨hchecked, hcall⟩ := entry_eq_ok hbody
    cases h
    exact ⟨⟨hchecked, hcall⟩, rfl, rfl⟩

/-- Failures are counted apart, and do not show in what is compiled. -/
theorem compile_of_compile {recipe : Recipe} {call : CallSignature} {engine engine' : Engine}
    {a : Artifact} (h : compile recipe call engine = (.ok a, engine')) (failures : Nat) :
    compile recipe call ⟨engine.compilations, failures⟩ =
      (.ok a, ⟨engine.compilations + 1, failures⟩) := by
  unfold compile at h ⊢
  split at h
  case h_1 => cases h
  case h_2 =>
    cases h
    rfl

theorem takes_of_compile {recipe : Recipe} {call : CallSignature} {engine engine' : Engine}
    {a : Artifact} (h : compile recipe call engine = (.ok a, engine')) : Takes recipe call := by
  unfold compile at h
  split at h
  case h_1 => cases h
  case h_2 body hbody => exact ⟨body, hbody⟩

theorem takes_iff_compile {recipe : Recipe} {call : CallSignature} {engine : Engine} :
    Takes recipe call ↔ ∃ artifact engine', compile recipe call engine = (.ok artifact, engine') :=
  ⟨fun h => (h.compile engine).imp fun _ hcompile => ⟨_, hcompile⟩,
    fun ⟨_, _, hcompile⟩ => takes_of_compile hcompile⟩

theorem compile_eq_error_iff {recipe : Recipe} {call : CallSignature} {engine engine' : Engine}
    {e : Error} : compile recipe call engine = (.error e, engine') ↔
      ∃ reason, entry recipe call = .error reason ∧
        e = .compilation recipe.kernel.name call reason ∧
        engine' = { engine with failures := engine.failures + 1 } := by
  unfold compile
  rcases entry recipe call with reason | body
  case error =>
    constructor
    · intro h
      cases h
      exact ⟨reason, rfl, rfl, rfl⟩
    · rintro ⟨_, ⟨⟩, rfl, rfl⟩
      rfl
  case ok =>
    constructor
    · intro h
      cases h
    · rintro ⟨_, ⟨⟩, -⟩

theorem compile_eq_error {recipe : Recipe} {call : CallSignature} {engine engine' : Engine}
    {e : Error} (h : compile recipe call engine = (.error e, engine')) :
    (∃ reason, e = .compilation recipe.kernel.name call reason) ∧
      engine' = { engine with failures := engine.failures + 1 } := by
  obtain ⟨reason, -, he, hengine⟩ := compile_eq_error_iff.1 h
  exact ⟨⟨reason, he⟩, hengine⟩

end Compiler

end Corewise
