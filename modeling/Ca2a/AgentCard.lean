/-
`merge_agent_card`: an operator's card with one current cA2A declaration.

Cards are mutable objects. The merge makes a copy and changes that one in
place, at positions it has read off it before, so the duplicates go from the
last to the first. What the input looks like afterwards is a fact about the
heap, `mergeAgentCard_frame`.
-/
import Ca2a.Node
import Ca2a.Protobuf
import Ca2a.Py.Indexes

namespace Ca2a

open Py

/-- `AgentExtension` of the SDK. -/
structure AgentExtension where
  uri : Str
  description : Str := []
  required : Bool := false
  params : Option Struct := none

/-- The `capabilities` of a card: the declared extensions, and `C` the rest. -/
structure AgentCapabilities (C : Type) where
  fields : C
  extensions : List AgentExtension

/-- `AgentCard` of the SDK: `S` is a signature, and `F` what the modelled function does not look into. -/
structure AgentCard (F C S : Type) where
  fields : F
  capabilities : Option (AgentCapabilities C)
  signatures : List S

variable {F C S : Type} [Inhabited C]

/-- `card.capabilities`, the default message when the field is not set. -/
def AgentCard.readCapabilities (card : AgentCard F C S) : AgentCapabilities C :=
  card.capabilities.getD { fields := default, extensions := [] }

/-- `card.capabilities.extensions` -/
def AgentCard.extensions (card : AgentCard F C S) : List AgentExtension := card.readCapabilities.extensions

/-- The card after a change of `card.capabilities.extensions`, which sets the field. -/
def AgentCard.withExtensions (card : AgentCard F C S) (extensions : List AgentExtension) : AgentCard F C S :=
  { card with capabilities := some { card.readCapabilities with extensions } }

/-- The cards there are, by reference. -/
abbrev CardHeap (F C S : Type) := List (AgentCard F C S)

/-- The reference of a new object. -/
theorem new_lt_length {α : Type} (heap : List α) (new : α) : heap.length < (heap ++ [new]).length := by simp

/-- A change of the extensions of one card, in place. -/
def mutateExtensions (heap : CardHeap F C S) (card : Fin heap.length)
    (change : List AgentExtension → Result (List AgentExtension)) : Result (CardHeap F C S) := do
  let extensions ← change (heap.get card).extensions
  .ok (heap.set card ((heap.get card).withExtensions extensions))

/-- `extension.uri == EXTENSION_URI` -/
def AgentExtension.isCa2a (extension : AgentExtension) : Bool := extension.uri = extensionUri

section
variable [Interp] [Crypto] (double : Int → Result PyFloat)

omit [Interp] [Crypto] in
theorem wf_requirementParams (value : Str) :
    (Json.obj [(lit "require_caller_attestation", .str value)]).WF := by
  simp [Dict.keys]

/-- `agent_extension_for_node` -/
def agentExtensionForNode (node : PeerNode) : Result AgentExtension := do
  let params ← parseDict double
    ⟨[(lit "require_caller_attestation", .str node.requireCallerAttestation)], wf_requirementParams _⟩
  .ok { uri := extensionUri, required := false, params := some params }

/-- What `merge_agent_card` does to the extensions of its copy. -/
def replaceDeclarations (generated : AgentExtension) (extensions : List AgentExtension) : Result (List AgentExtension) :=
  match indexesFrom AgentExtension.isCa2a 0 extensions with
  | first :: rest => do
    let extensions ← setItem extensions first generated
    delItems extensions rest.reverse
  | [] => .ok (extensions ++ [generated])

/-- `merge_agent_card`: the heap afterwards, and the reference it returns. -/
def mergeAgentCard (heap : CardHeap F C S) (card : Fin heap.length) (node : PeerNode) : Result (CardHeap F C S × Nat) :=
  if ¬ (heap.get card).signatures.isEmpty then
    raise .transportError (lit "merge the cA2A extension before signing the Agent Card")
      (some (lit "cA2A does not verify or re-sign operator Agent Cards"))
  else do
    -- `CopyFrom` into a new card
    let merged : Fin (heap ++ [heap.get card]).length := ⟨heap.length, new_lt_length heap _⟩
    let generated ← agentExtensionForNode double node
    let heap ← mutateExtensions (heap ++ [heap.get card]) merged (replaceDeclarations generated)
    .ok (heap, merged)

/-! ## The extensions -/

variable {double}

omit [Interp] [Crypto] in
/-- The list with its declarations replaced by one, which stands where the first of them stood. -/
theorem replaceDeclarations_eq (generated : AgentExtension) (extensions : List AgentExtension) :
    replaceDeclarations generated extensions =
      .ok ((extensions.takeWhile fun e => !e.isCa2a) ++
        generated :: (extensions.dropWhile fun e => !e.isCa2a).filter fun e => !e.isCa2a) := by
  have hsplit := List.takeWhile_append_dropWhile (p := fun e : AgentExtension => !e.isCa2a) (l := extensions)
  rw [replaceDeclarations, indexesFrom_eq]
  cases hlater : extensions.dropWhile fun e => !e.isCa2a with
  | nil =>
    rw [hlater, List.append_nil] at hsplit
    rw [hsplit]
    rfl
  | cons old later =>
    have hold : old.isCa2a = true := by
      have := List.head?_dropWhile_not (fun e : AgentExtension => !e.isCa2a) extensions
      rw [hlater] at this
      simpa using this
    rw [hlater] at hsplit
    generalize extensions.takeWhile (fun e => !e.isCa2a) = before at hsplit ⊢
    subst hsplit
    have hset : setItem (ε := CA2AError) (before ++ old :: later) (0 + before.length) generated =
        .ok ((before ++ [generated]) ++ later) := by
      rw [Nat.zero_add, setItem, if_pos (by simp), List.set_append_right _ _ (Nat.le_refl _)]
      simp
    have hlength : 0 + before.length + 1 = (before ++ [generated]).length := by simp
    simp only [hset, ok_bind, hlength, delItems_indexesFrom]
    rw [List.filter_cons_of_neg (by simp [hold]), List.append_assoc]
    rfl

omit [Interp] [Crypto] in
theorem clean_requirement {value : Str} (h : value ∈ requirementValues) : Clean value := by
  have hall : ∀ v ∈ requirementValues, Clean v := by decide
  exact hall value h

/-- A node's declaration: not required, with what the node demands of its callers. -/
theorem agentExtensionForNode_ok (node : PeerNode) :
    ∃ generated params, agentExtensionForNode double node = .ok generated ∧ generated.uri = extensionUri ∧
      generated.required = false ∧ generated.params = some params ∧
      params.items = [(lit "require_caller_attestation", .str node.requireCallerAttestation)] := by
  have hclean := clean_requirement node.requirement
  have hparse : parseFields double [(lit "require_caller_attestation", .str node.requireCallerAttestation)] =
      .ok [(lit "require_caller_attestation", .str node.requireCallerAttestation)] := by
    refine parseFields_ok_iff.mpr (.cons ⟨clean_lit _, rfl, ?_⟩ .nil)
    rw [parseValue, protoText_ok_iff.mpr ⟨hclean, rfl⟩]
    rfl
  have hparams : ∃ params, parseDict double
      ⟨[(lit "require_caller_attestation", .str node.requireCallerAttestation)], wf_requirementParams _⟩ = .ok params ∧
        params.items = [(lit "require_caller_attestation", .str node.requireCallerAttestation)] := by
    obtain ⟨hwf, hnoInt, htext⟩ := struct_of_parseFields (wf_requirementParams _) hparse
    exact ⟨⟨_, hwf, hnoInt, htext⟩, parseDict_ok_iff.mpr hparse, rfl⟩
  obtain ⟨params, hdict, hitems⟩ := hparams
  refine ⟨{ uri := extensionUri, required := false, params := some params }, params, ?_, rfl, rfl, rfl, hitems⟩
  rw [agentExtensionForNode, hdict]
  rfl

/-! ## The merge -/

/-- The card `merge_agent_card` returns for a declaration. -/
def mergedCard (card : AgentCard F C S) (generated : AgentExtension) : AgentCard F C S :=
  card.withExtensions ((card.extensions.takeWhile fun e => !e.isCa2a) ++
    generated :: (card.extensions.dropWhile fun e => !e.isCa2a).filter fun e => !e.isCa2a)

/-- **The merge adds one card to the heap** and leaves the cards there were as they are. -/
theorem mergeAgentCard_frame {heap : CardHeap F C S} {card : Fin heap.length} {node : PeerNode}
    {generated : AgentExtension} (hunsigned : (heap.get card).signatures = [])
    (hgenerated : agentExtensionForNode double node = .ok generated) :
    mergeAgentCard double heap card node = .ok (heap ++ [mergedCard (heap.get card) generated], heap.length) := by
  have hcopy : (heap ++ [heap.get card]).get ⟨heap.length, new_lt_length heap _⟩ = heap.get card := by
    simp
  have hset : ∀ new, (heap ++ [heap.get card]).set heap.length new = heap ++ [new] := by
    intro new
    rw [List.set_append_right _ _ (Nat.le_refl _)]
    simp
  rw [mergeAgentCard, hunsigned, if_neg (by simp)]
  simp only [hgenerated, ok_bind, mutateExtensions, hcopy, replaceDeclarations_eq, hset]
  rfl

omit [Interp] [Crypto] in
theorem mergedCard_extensions (card : AgentCard F C S) (generated : AgentExtension) :
    (mergedCard card generated).extensions = (card.extensions.takeWhile fun e => !e.isCa2a) ++
      generated :: (card.extensions.dropWhile fun e => !e.isCa2a).filter fun e => !e.isCa2a := rfl

omit [Interp] [Crypto] in
theorem mergedCard_declarations (card : AgentCard F C S) {generated : AgentExtension} (hg : generated.isCa2a = true) :
    (mergedCard card generated).extensions.filter AgentExtension.isCa2a = [generated] := by
  have hbefore : (card.extensions.takeWhile fun e => !e.isCa2a).filter AgentExtension.isCa2a = [] := by
    rw [List.filter_eq_nil_iff]
    intro e he
    simpa using List.mem_takeWhile_imp he
  rw [mergedCard_extensions, List.filter_append, hbefore, List.filter_cons_of_pos hg, List.nil_append, List.filter_filter]
  simp

omit [Interp] [Crypto] in
theorem mergedCard_others (card : AgentCard F C S) {generated : AgentExtension} (hg : generated.isCa2a = true) :
    (mergedCard card generated).extensions.filter (fun e => !e.isCa2a) =
      card.extensions.filter fun e => !e.isCa2a := by
  have hsplit := List.takeWhile_append_dropWhile (p := fun e : AgentExtension => !e.isCa2a) (l := card.extensions)
  rw [mergedCard_extensions, List.filter_append, List.filter_cons_of_neg (by simp [hg]), List.filter_filter]
  conv_rhs => rw [← hsplit, List.filter_append]
  simp

omit [Interp] [Crypto] in
/-- The declaration stands where the first of the old ones stood, or at the end. -/
theorem mergedCard_position (card : AgentCard F C S) (generated : AgentExtension) :
    (mergedCard card generated).extensions[card.extensions.findIdx AgentExtension.isCa2a]? = some generated := by
  have hindex : card.extensions.findIdx AgentExtension.isCa2a = (card.extensions.takeWhile fun e => !e.isCa2a).length := by
    rw [List.takeWhile_eq_take_findIdx_not, List.length_take]
    simp only [Bool.not_not]
    exact (min_eq_left List.findIdx_le_length).symm
  rw [hindex, mergedCard_extensions]
  simp

omit [Interp] [Crypto] in
/-- A merged card is merged into itself. -/
theorem mergedCard_mergedCard (card : AgentCard F C S) {generated : AgentExtension} (hg : generated.isCa2a = true) :
    mergedCard (mergedCard card generated) generated = mergedCard card generated := by
  have hbefore : ∀ e ∈ card.extensions.takeWhile fun e => !e.isCa2a, (!e.isCa2a) = true := by
    intro e he
    simpa using List.mem_takeWhile_imp he
  have hextensions : (mergedCard (mergedCard card generated) generated).extensions = (mergedCard card generated).extensions := by
    rw [mergedCard_extensions, mergedCard_extensions, List.takeWhile_append_of_pos hbefore,
      List.dropWhile_append_of_pos hbefore, List.takeWhile_cons_of_neg (by simp [hg]),
      List.dropWhile_cons_of_neg (by simp [hg]), List.filter_cons_of_neg (by simp [hg]), List.filter_filter]
    simp
  exact congrArg card.withExtensions hextensions

/-- **One current declaration.** The merge of an unsigned card adds one card to the heap and leaves
those there were as they are. The new card has the node's declaration once, where the first of the old
ones stood or at the end, the other extensions in their order, and all else as it was; merging it
again gives an equal card. -/
theorem mergeAgentCard_unsigned (double : Int → Result PyFloat) (heap : CardHeap F C S) (card : Fin heap.length)
    (node : PeerNode) (hunsigned : (heap.get card).signatures = []) :
    ∃ generated merged, agentExtensionForNode double node = .ok generated ∧
      mergeAgentCard double heap card node = .ok (heap ++ [merged], heap.length) ∧
      merged.extensions.filter AgentExtension.isCa2a = [generated] ∧
      merged.extensions[(heap.get card).extensions.findIdx AgentExtension.isCa2a]? = some generated ∧
      merged.extensions.filter (fun e => !e.isCa2a) = (heap.get card).extensions.filter (fun e => !e.isCa2a) ∧
      merged.fields = (heap.get card).fields ∧ merged.signatures = (heap.get card).signatures ∧
      merged.capabilities = some { (heap.get card).readCapabilities with extensions := merged.extensions } ∧
      mergeAgentCard double (heap ++ [merged]) ⟨heap.length, new_lt_length heap _⟩ node =
        .ok (heap ++ [merged] ++ [merged], heap.length + 1) := by
  obtain ⟨generated, params, hgenerated, huri, _⟩ := @agentExtensionForNode_ok _ _ double node
  have hg : generated.isCa2a = true := by
    rw [AgentExtension.isCa2a, huri]
    exact decide_eq_true rfl
  refine ⟨generated, mergedCard (heap.get card) generated, hgenerated, mergeAgentCard_frame hunsigned hgenerated,
    mergedCard_declarations _ hg, mergedCard_position _ _, mergedCard_others _ hg, rfl, rfl, rfl, ?_⟩
  have hcopy : (heap ++ [mergedCard (heap.get card) generated]).get ⟨heap.length, new_lt_length heap _⟩ =
      mergedCard (heap.get card) generated := by
    simp
  have hcopyUnsigned : ((heap ++ [mergedCard (heap.get card) generated]).get
      ⟨heap.length, new_lt_length heap _⟩).signatures = [] := by
    rw [hcopy]
    exact hunsigned
  rw [mergeAgentCard_frame hcopyUnsigned hgenerated, hcopy, mergedCard_mergedCard _ hg, List.length_append, List.length_singleton]

end

/-- A node that demands nothing of its callers. -/
def cardNode : @PeerNode Interp.ascii Crypto.toy :=
  let _ := Interp.ascii
  let _ := Crypto.toy
  { policy := localPolicy ∅
    privateKey := (5 : UInt8)
    challengeSecret := []
    requirement := requireNone_mem
    appraisable := appraisable_requireNone }

/-- A card with two declarations among others. -/
def staleCard : AgentCard Unit Unit Unit where
  fields := ()
  capabilities := some
    { fields := ()
      extensions := [{ uri := lit "a" }, { uri := extensionUri, required := true }, { uri := lit "b" }, { uri := extensionUri }] }
  signatures := []

/-- The merge leaves the operator's extensions, and the declaration in the second place. -/
theorem mergeAgentCard_staleCard :
    ∃ generated merged, @mergeAgentCard Unit Unit Unit _ Interp.ascii Crypto.toy (fun i => .ok (.finite i)) [staleCard]
        ⟨0, Nat.one_pos⟩ cardNode = .ok ([staleCard, merged], 1) ∧
      merged.extensions[1]? = some generated ∧ merged.extensions.filter AgentExtension.isCa2a = [generated] := by
  obtain ⟨generated, merged, _, hmerge, hone, hposition, _⟩ :=
    @mergeAgentCard_unsigned Unit Unit Unit _ Interp.ascii Crypto.toy (fun i => .ok (.finite i)) [staleCard]
      ⟨0, Nat.one_pos⟩ cardNode rfl
  exact ⟨generated, merged, hmerge, hposition, hone⟩

end Ca2a
