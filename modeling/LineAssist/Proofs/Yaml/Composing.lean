import LineAssist.Proofs.Yaml.TokenStream
import LineAssist.Yaml.Node

/-!
# Faults in the nodes of a document

Nodes are malformed, or end where the tokens end at a fault.
-/

namespace LineAssist.Yaml

namespace Node

/-- A fault that a reader of nodes may report: the document is malformed, or its tokens end at it. -/
def Setting.Allows (env : Setting) (e : Error) : Prop :=
  e = .malformed ∨ env.fault = some e

section Composes

variable {α β : Type} {env : Setting}

/-- A reader of nodes fails only as its tokens do. -/
def Composes (env : Setting) (x : Except Error α) : Prop :=
  Yields env.Allows (fun _ => True) x

theorem composes_ok (a : α) : Composes env (.ok a) :=
  trivial

theorem composes_malformed : Composes env (.error .malformed : Except Error α) :=
  .inl rfl

theorem composes_fail (s : State) : Composes env (env.fail s : Except Error α) := by
  unfold Setting.fail
  split
  · cases h : env.fault with
    | none => exact .inl rfl
    | some e => exact .inr h
  · exact composes_malformed

theorem Composes.bind {x : Except Error α} {f : α → Except Error β} (hx : Composes env x)
    (hf : ∀ a, Composes env (f a)) : Composes env (x >>= f) :=
  Yields.bind hx fun a _ => hf a

theorem composes_ite {p : Prop} [Decidable p] {x y : Except Error α} (hx : Composes env x)
    (hy : Composes env y) : Composes env (if p then x else y) := by
  split
  · exact hx
  · exact hy

theorem composes_expandTag (t : TagText) : Composes env (expandTag env t) := by
  unfold expandTag
  split
  · exact composes_ok _
  · split
    · exact composes_ok _
    · exact composes_malformed

theorem composes_properties (s : State) : Composes env (properties env s) := by
  unfold properties
  split
  · exact (composes_expandTag _).bind fun _ => composes_ok _
  · exact (composes_expandTag _).bind fun _ => composes_ok _
  · exact composes_ok _
  · exact (composes_expandTag _).bind fun _ => composes_ok _
  · exact composes_ok _

theorem composes_begin (anchor : Option Text) (s : State) : Composes env (s.begin anchor) := by
  unfold State.begin
  simp only
  split
  · exact composes_ok _
  · exact composes_ite composes_malformed (composes_ok _)

/-- Behind the comma in front of a part of a flow collection, which the first part does without. -/
theorem composes_separated {first : Bool} {s : State} {f : State → Except Error α}
    (hf : ∀ s, Composes env (f s)) :
    Composes env (if first then f s
      else if s.tokens.head? == some .flowEntry then f s.drop else env.fail s >>= f) :=
  composes_ite (hf s) (composes_ite (hf _) ((composes_fail s).bind hf))

end Composes

/-- Readers with this much fuel fail only as their tokens do. -/
structure AllCompose (env : Setting) (fuel : Nat) : Prop where
  node : ∀ block indentless s, Composes env (read env block indentless fuel s)
  nodeOr : ∀ block indentless stops s, Composes env (readOr env block indentless stops fuel s)
  entries : ∀ indentless s, Composes env (readEntries env indentless fuel s)
  pairs : ∀ s, Composes env (readPairs env fuel s)
  flowItems : ∀ first s, Composes env (readFlowItems env first fuel s)
  flowPairs : ∀ first s, Composes env (readFlowPairs env first fuel s)

section Step

variable {env : Setting} {fuel : Nat}

theorem AllCompose.node_succ (h : AllCompose env fuel) (block indentless : Bool) (s : State) :
    Composes env (read env block indentless (fuel + 1) s) := by
  unfold read
  split
  · split
    · exact composes_ok _
    · exact composes_malformed
  · refine (composes_properties s).bind fun (anchor, tag, s) => ?_
    refine (composes_begin anchor s).bind fun (place, s) => ?_
    simp only
    -- what a token that starts no node gives
    have hbare : Composes env (if anchor.isSome || tag.isSome then
        (Except.ok (scalar (scalarTag tag [] true) [], s)).bind fun found : Node × State =>
          .ok (place, found.2.finish place found.1)
      else (env.fail s).bind fun found : Node × State =>
          .ok (place, found.2.finish place found.1)) :=
      composes_ite (composes_ok _) ((composes_fail s).bind fun _ => composes_ok _)
    split
    · exact composes_ite ((h.entries _ _).bind fun _ => composes_ok _) hbare
    · exact composes_ok _
    · exact (h.flowItems _ _).bind fun _ => composes_ok _
    · exact (h.flowPairs _ _).bind fun _ => composes_ok _
    · exact composes_ite ((h.entries _ _).bind fun _ => composes_ok _) hbare
    · exact composes_ite ((h.pairs _).bind fun _ => composes_ok _) hbare
    · exact hbare

theorem AllCompose.nodeOr_succ (h : AllCompose env fuel) (block indentless : Bool)
    (stops : List Token) (s : State) :
    Composes env (readOr env block indentless stops (fuel + 1) s) :=
  composes_ite (composes_ok _) (h.node _ _ _)

theorem AllCompose.entries_succ (h : AllCompose env fuel) (indentless : Bool) (s : State) :
    Composes env (readEntries env indentless (fuel + 1) s) := by
  unfold readEntries
  split
  · exact (h.nodeOr _ _ _ _).bind fun (n, s) => (h.entries _ _).bind fun (more, s) => composes_ok _
  · exact composes_ok _
  · exact composes_ite (composes_ok _) (composes_fail _)

theorem AllCompose.pairs_succ (h : AllCompose env fuel) (s : State) :
    Composes env (readPairs env (fuel + 1) s) := by
  unfold readPairs
  simp only
  split
  · exact composes_ok _
  · refine (h.nodeOr _ _ _ _).bind fun (k, s) => ?_
    simp only
    split
    · exact (h.nodeOr _ _ _ _).bind fun _ => (h.pairs _).bind fun _ => composes_ok _
    · exact (h.pairs _).bind fun _ => composes_ok _
  · exact composes_fail _

theorem AllCompose.flowItems_succ (h : AllCompose env fuel) (first : Bool) (s : State) :
    Composes env (readFlowItems env first (fuel + 1) s) := by
  unfold readFlowItems
  refine composes_ite (composes_ok _) ?_
  extract_lets last
  have hlast (s : State) : Composes env (last s) := by
    simp only [last]
    split
    · exact composes_ok _
    · refine (h.nodeOr _ _ _ _).bind fun (k, s) => ?_
      simp only
      split
      · exact (h.nodeOr _ _ _ _).bind fun _ => (h.flowItems _ _).bind fun _ => composes_ok _
      · exact (h.flowItems _ _).bind fun _ => composes_ok _
    · exact (h.node _ _ _).bind fun _ => (h.flowItems _ _).bind fun _ => composes_ok _
  exact composes_separated hlast

theorem AllCompose.flowPairs_succ (h : AllCompose env fuel) (first : Bool) (s : State) :
    Composes env (readFlowPairs env first (fuel + 1) s) := by
  unfold readFlowPairs
  refine composes_ite (composes_ok _) ?_
  extract_lets last
  have hlast (s : State) : Composes env (last s) := by
    simp only [last]
    split
    · exact composes_ok _
    · refine (h.nodeOr _ _ _ _).bind fun (k, s) => ?_
      simp only
      split
      · exact (h.nodeOr _ _ _ _).bind fun _ => (h.flowPairs _ _).bind fun _ => composes_ok _
      · exact (h.flowPairs _ _).bind fun _ => composes_ok _
    · exact (h.node _ _ _).bind fun _ => (h.flowPairs _ _).bind fun _ => composes_ok _
  exact composes_separated hlast

theorem allCompose (env : Setting) (fuel : Nat) : AllCompose env fuel := by
  -- all readers at once, since each of them calls the others with less fuel
  induction fuel with
  | zero =>
    exact {
      node := fun _ _ => composes_fail
      nodeOr := fun _ _ _ => composes_fail
      entries := fun _ => composes_fail
      pairs := composes_fail
      flowItems := fun _ => composes_fail
      flowPairs := fun _ => composes_fail }
  | succ fuel ih =>
    exact {
      node := ih.node_succ
      nodeOr := ih.nodeOr_succ
      entries := ih.entries_succ
      pairs := ih.pairs_succ
      flowItems := ih.flowItems_succ
      flowPairs := ih.flowPairs_succ }

end Step

theorem composes_readDocument (handles : List (Text × Text)) (fault : Option Error)
    (explicit : Bool) (ts : List Token) :
    Composes ⟨handles ++ knownHandles, fault⟩ (readDocument handles fault explicit ts) := by
  unfold readDocument
  extract_lets env s last
  have hlast (r : Nat × State) : Composes env (last r) := by
    simp only [last]
    split
    · exact composes_ok _
    · exact composes_fail _
  split
  · exact (composes_ite (composes_fail s) (composes_ok _)).bind hlast
  · exact ((allCompose env _).node _ _ s).bind hlast

theorem yields_readDirectives (versioned : Bool) (handles : List (Text × Text)) (ts : List Token) :
    Yields (· = .malformed) (fun _ => True) (readDirectives versioned handles ts) := by
  induction ts generalizing versioned handles with
  | nil => exact trivial
  | cons t ts ih =>
    unfold readDirectives
    split
    · next h =>
      cases h
      split
      · exact rfl
      · exact ih _ _
    · next h =>
      cases h
      split
      · exact rfl
      · exact ih _ _
    · next h =>
      cases h
      exact ih _ _
    · exact trivial

end Node

/-- A text is no document only if it is malformed or is not cut into tokens. -/
theorem yields_documentRead (t : Text) : Yields (Faulty t) (fun _ => True) (Document.read t) := by
  have htokens (e : Error) (h : (tokens t).2 = some e) : Faulty t e := faulty_of_tokens h
  have hdocument (handles : List (Text × Text)) (explicit : Bool) (ts : List Token) :
      Yields (Faulty t) (fun _ => True) (do
        let d ← Node.readDocument handles (tokens t).2 explicit ts
        .ok (some d)) :=
    ((Node.composes_readDocument handles _ explicit ts).imp
      (fun e he => he.elim .inl (htokens e)) fun _ _ => trivial).bind fun _ _ => trivial
  have hmissing : Faulty t ((tokens t).2.getD .malformed) := by
    cases h : (tokens t).2 with
    | none => exact .inl rfl
    | some e => exact htokens e h
  unfold Document.read
  simp only
  split
  case h_1 => exact trivial
  case h_2 h => exact htokens _ h
  case h_3 h | h_4 h =>
    -- a document behind directives, or behind its start
    refine ((Node.yields_readDirectives _ _ _).imp (fun _ => .inl) fun _ => id).bind
      fun (handles, rest) _ => ?_
    simp only
    split
    · exact hdocument _ _ _
    · exact hmissing
    · exact .inl rfl
  case h_5 => exact hdocument _ _ _

end LineAssist.Yaml
