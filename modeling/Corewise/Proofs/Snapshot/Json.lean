import Corewise.Proofs.OperandType.Json
import Corewise.Snapshot.Text
/-!
Snapshots as JSON texts. What is written for a snapshot is read back, and so is any text of an object that has
the same fields.
-/

namespace Corewise

namespace Options

/-- The switches as they are written. -/
def slots (o : Options) : List Json.Slot :=
  [.optional "nopython" default.nativeOnly o.nativeOnly (.bool o.nativeOnly),
    .optional "forceobj" default.forceObject o.forceObject (.bool o.forceObject),
    .optional "boundscheck" default.boundsCheck o.boundsCheck (.bool o.boundsCheck),
    .optional "parallel" default.parallel o.parallel (.bool o.parallel)]

theorem toJson_eq (o : Options) : o.toJson = .object (o.slots.map Json.Slot.field) := rfl

/-- Options are read from every object that has their switches. -/
theorem ofJson?_of_presents {o : Options} {fields : List (String × Json)}
    (h : Json.Presents o.slots fields) : ofJson? (.object fields) = some o := by
  obtain ⟨vs, hvs, hfound⟩ := h.record? (show fieldNames.Nodup by decide)
  have hnames : (Json.object fields).record? fieldNames = some vs := hvs
  match vs, hfound with
  | [_, _, _, _], .cons hnative (.cons hforce (.cons hbounds (.cons hparallel .nil))) =>
    unfold ofJson?
    rw [hnames]
    dsimp only [Option.bind_eq_bind, Option.bind_some]
    rw [hnative.optional? (Json.bool?_bool _), hforce.optional? (Json.bool?_bool _),
      hbounds.optional? (Json.bool?_bool _), hparallel.optional? (Json.bool?_bool _)]
    rfl

theorem ofJson?_toJson (o : Options) : ofJson? o.toJson = some o := by
  rw [toJson_eq]
  exact ofJson?_of_presents (Json.presents_fields o.slots)

theorem readable (o : Options) (depth : Nat) : Json.Readable (depth + 1) o.toJson := by
  refine .object ?_
  simp only [List.forall_mem_cons]
  exact ⟨.bool depth _, .bool depth _, .bool depth _, .bool depth _, nofun⟩

end Options

theorem Identity.ofJson?_name (i : Identity) : Identity.ofJson? (.string i.name) = some i := by
  cases i <;> rfl

namespace Snapshot

/-- All numbers fit a word: the positions of operands and the ranks of array types. -/
def Sized (s : Snapshot) : Prop :=
  (∀ n ∈ s.writableArgs, n < wordLimit) ∧ ∀ c ∈ s.specializations, c.Sized

instance (s : Snapshot) : Decidable s.Sized :=
  inferInstanceAs (Decidable ((∀ n ∈ s.writableArgs, n < wordLimit) ∧ ∀ c ∈ s.specializations, c.Sized))

/-- The fields as they are written, with the options as they are given. -/
def slots (s : Snapshot) (options : Json) : List Json.Slot :=
  [.required "kernel" (.string s.kernel),
    .required "signature" (.string s.signature),
    .optional "identity" .none s.identity (.string s.identity.name),
    .optional "cache" false s.cache (.bool s.cache),
    .required "is_dynamic" (.bool s.isDynamic),
    .optional "target_options" Options.default s.options options,
    .optional "writable_args" [] s.writableArgs (.array (s.writableArgs.map Json.natural)),
    .optional "typesigs" [] s.specializations (.array (s.specializations.map CallSignature.toJson)),
    .optional "frozen" false s.frozen (.bool s.frozen)]

theorem toJson_eq (s : Snapshot) :
    s.toJson = .object ((s.slots s.options.toJson).map Json.Slot.field) := rfl

variable {s : Snapshot}

/-- A snapshot is read from every object that has its fields. -/
theorem Sized.ofJson?_of_presents (h : s.Sized) {options : Json} {fields : List (String × Json)}
    (hoptions : Options.ofJson? options = some s.options)
    (hfields : Json.Presents (s.slots options) fields) : ofJson? (.object fields) = some s := by
  obtain ⟨vs, hvs, hfound⟩ := hfields.record? (show fieldNames.Nodup by decide)
  have hnames : (Json.object fields).record? fieldNames = some vs := hvs
  have hwritable := Json.list?_map fun n hn => Json.word?_natural (h.1 n hn)
  have hspecializations := Json.list?_map fun c hc => (h.2 c hc).ofJson?_toJson
  match vs, hfound with
  | [_, _, _, _, _, _, _, _, _], .cons hkernel (.cons hsignature (.cons hidentity (.cons hcache
      (.cons hdynamic (.cons hopts (.cons hargs (.cons hsigs (.cons hfrozen .nil)))))))) =>
    unfold ofJson?
    rw [hnames]
    dsimp only [Option.bind_eq_bind, Option.bind_some]
    rw [hkernel.required? (Json.string?_string _), hsignature.required? (Json.string?_string _),
      hidentity.optional? (Identity.ofJson?_name _), hcache.optional? (Json.bool?_bool _),
      hdynamic.required? (Json.bool?_bool _), hopts.optional? hoptions, hargs.optional? hwritable,
      hsigs.optional? hspecializations, hfrozen.optional? (Json.bool?_bool _)]
    rfl

/-- A snapshot is read back from what is written for it. -/
theorem Sized.ofJson?_toJson (h : s.Sized) : ofJson? s.toJson = some s := by
  rw [toJson_eq]
  exact h.ofJson?_of_presents s.options.ofJson?_toJson (Json.presents_fields (s.slots s.options.toJson))

theorem Sized.readable (h : s.Sized) (depth : Nat) : Json.Readable (depth + 5) s.toJson := by
  have hwritable : ∀ v ∈ s.writableArgs.map Json.natural, Json.Readable (depth + 3) v := by
    intro v hv
    obtain ⟨n, hn, rfl⟩ := List.mem_map.1 hv
    exact .natural _ (h.1 n hn)
  have hspecializations : ∀ v ∈ s.specializations.map CallSignature.toJson,
      Json.Readable (depth + 3) v := by
    intro v hv
    obtain ⟨c, hc, rfl⟩ := List.mem_map.1 hv
    exact (h.2 c hc).readable depth
  refine .object ?_
  simp only [List.forall_mem_cons]
  exact ⟨.string _ _, .string _ _, .string _ _, .bool _ _, .bool _ _, s.options.readable (depth + 3),
    .array hwritable, .array hspecializations, .bool _ _, nofun⟩

/-- What is written for a snapshot is read back, and the same snapshot is read from any text of an object
with its fields: in any order, with fields that it does not have, and without those that hold their default,
in its options too. Each operand type and each call signature is read back from its own texts. -/
theorem json_read_back :
    (∀ s : Snapshot, s.Sized → ofJsonText? s.toJsonText = some s ∧
      ∀ options fields : List (String × Json), Json.Presents s.options.slots options →
        Json.Presents (s.slots (.object options)) fields →
        (∀ text, Json.parse text = some (.object fields) → ofJsonText? text = some s) ∧
        ∀ cs, Json.Written Json.maxDepth (.object fields) cs → ofJsonText? (String.ofList cs) = some s) ∧
    (∀ t : OperandType, t.Sized → ∀ text, text = t.toJson.compact ∨ text = t.toJson.pretty →
      (Json.parse text).bind OperandType.ofJson? = some t) ∧
    ∀ c : CallSignature, c.Sized → ∀ text, text = c.toJson.compact ∨ text = c.toJson.pretty →
      (Json.parse text).bind CallSignature.ofJson? = some c := by
  refine ⟨fun s hs => ⟨?_, fun options fields hoptions hfields => ?_⟩, fun t ht text htext => ?_,
    fun c hc text htext => ?_⟩
  · unfold ofJsonText? toJsonText
    rw [Json.parse_pretty (hs.readable 122), Option.bind_some, hs.ofJson?_toJson]
  · have hread : ofJson? (.object fields) = some s :=
      hs.ofJson?_of_presents (Options.ofJson?_of_presents hoptions) hfields
    have htexts (text : String) (htext : Json.parse text = some (.object fields)) :
        ofJsonText? text = some s := by
      unfold ofJsonText?
      rw [htext, Option.bind_some, hread]
    exact ⟨htexts, fun cs hcs => htexts _ hcs.parse⟩
  · rw [Json.Readable.parse (ht.readable 126) htext, Option.bind_some, ht.ofJson?_toJson]
  · rw [Json.Readable.parse (hc.readable 124) htext, Option.bind_some, hc.ofJson?_toJson]

def noted : Snapshot where
  kernel := "dot \"x\"\n"
  signature := "(n),(n)->()"
  identity := .none
  cache := false
  isDynamic := true
  options := ⟨false, true, false, false⟩
  writableArgs := [2]
  specializations := [⟨[.array .float64 1 .c, .scalar .int32, .object], .none⟩]
  frozen := false

/-- The switches that are not off, behind one that options do not have. -/
def notedOptions : List (String × Json) := [("since", .natural 3), ("forceobj", .bool true)]

/-- The fields that do not hold their default, in the reverse order and behind a note. -/
def notedFields : List (String × Json) :=
  [("note", .null), ("typesigs", .array (noted.specializations.map CallSignature.toJson)),
    ("writable_args", .array [.natural 2]), ("target_options", .object notedOptions),
    ("is_dynamic", .bool true), ("signature", .string noted.signature), ("kernel", .string noted.kernel)]

theorem notedOptions_presents : Json.Presents noted.options.slots notedOptions := by
  have hreverse : notedOptions =
    (Json.trimmed noted.options.slots ++ [("since", Json.natural 3)]).reverse := rfl
  rw [hreverse]
  exact Json.presents_trimmed (List.reverse_perm _) (by decide)

theorem notedFields_presents : Json.Presents (noted.slots (.object notedOptions)) notedFields := by
  have hreverse : notedFields =
    (Json.trimmed (noted.slots (.object notedOptions)) ++ [("note", Json.null)]).reverse := rfl
  rw [hreverse]
  exact Json.presents_trimmed (List.reverse_perm _) (by decide)

theorem notedFields_readable : Json.Readable Json.maxDepth (.object notedFields) := by
  have hsized : noted.Sized := by decide
  have htypes : ∀ v ∈ noted.specializations.map CallSignature.toJson, Json.Readable 125 v := by
    intro v hv
    obtain ⟨c, hc, rfl⟩ := List.mem_map.1 hv
    exact (hsized.2 c hc).readable 122
  have hoptions : Json.Readable 126 (.object notedOptions) := by
    refine .object ?_
    simp only [notedOptions, List.forall_mem_cons]
    exact ⟨.natural 125 (by decide), .bool 125 true, nofun⟩
  refine .object ?_
  simp only [notedFields, List.forall_mem_cons]
  exact ⟨.null _, .array htypes, .array (List.forall_mem_singleton.2 (.natural _ (by decide))),
    hoptions, .bool _ _, .string _ _, .string _ _, nofun⟩

theorem json_read_back_noted : noted.Sized ∧ ofJsonText? noted.toJsonText = some noted ∧
    ofJsonText? (Json.object notedFields).compact = some noted ∧
    (Json.parse (OperandType.toJson (.array .float64 1 .c)).compact).bind OperandType.ofJson? =
      some (.array .float64 1 .c) ∧
    (Json.parse (CallSignature.toJson ⟨[.any], .none⟩).pretty).bind CallSignature.ofJson? =
      some ⟨[.any], .none⟩ := by
  have hsized : noted.Sized := by decide
  obtain ⟨hsnapshot, htype, hsignature⟩ := json_read_back
  obtain ⟨hown, hother⟩ := hsnapshot noted hsized
  obtain ⟨hparsed, -⟩ := hother notedOptions notedFields notedOptions_presents notedFields_presents
  refine ⟨hsized, hown, hparsed _ (Json.parse_compact notedFields_readable), ?_, ?_⟩
  · exact htype (.array .float64 1 .c) (by decide) _ (.inl rfl)
  · exact hsignature ⟨[.any], .none⟩ (by decide) _ (.inr rfl)

end Snapshot

end Corewise
