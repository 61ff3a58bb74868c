import LiveMarkup.Proofs.Render.Stages
/-! How a template call ends. Settling a tree never fails; a call fails before it, for a slot that is left
over, or behind it. -/
namespace LiveMarkup.Render
open Analysis Client Markup

variable {α β : Type} {f : Factory} {s s₁ s' : State}

section Goes

def Goes (f : Factory) (m : Rendering α) : Prop := ∀ s, ∃ a s', out m f s = (.ok a, s')

theorem goesPure {a : α} : Goes f (pure a) := fun s => ⟨a, s, rfl⟩

theorem goesModify {g : State → State} : Goes f (modify g) := fun s => ⟨(), g s, rfl⟩

theorem goesBind {m : Rendering α} {k : α → Rendering β} (hm : Goes f m) (hk : ∀ a, Goes f (k a)) :
    Goes f (m >>= k) := by
  intro s
  obtain ⟨a, s₁, ran⟩ := hm s
  rw [outBind, ran]
  exact hk a s₁

theorem goesGet {k : State → Rendering β} (hk : ∀ s, Goes f (k s)) : Goes f (get >>= k) := by
  intro s
  rw [outBind, outGet]
  exact hk s s

theorem goesRead {k : Factory → Rendering β} (hk : Goes f (k f)) : Goes f (read >>= k) := by
  intro s
  rw [outBind, outRead]
  exact hk s

theorem goesFold {k : β → α → Rendering β} (h : ∀ b a, Goes f (k b a)) (as : List α) (b : β) :
    Goes f (as.foldlM k b) := by
  induction as generalizing b with
  | nil => exact goesPure
  | cons a rest ih =>
    rw [List.foldlM_cons]
    exact goesBind (h b a) ih

theorem goesMap {k : α → Rendering β} (h : ∀ a, Goes f (k a)) (as : List α) : Goes f (as.mapM k) := by
  induction as with
  | nil => exact goesPure
  | cons a rest ih =>
    rw [List.mapM_cons]
    exact goesBind (h a) fun _ => goesBind ih fun _ => goesPure

theorem goesIdentify {attributes : List Attribute} : Goes f (identify attributes) := by
  intro s
  obtain ⟨id, attributes', page, is⟩ := @identified f s attributes
  exact ⟨_, _, is.ran⟩

theorem goesEvent (attributes : List Attribute) (a : Attribute) : Goes f (bindEvent attributes a) := by
  refine goesGet fun s => ?_
  split
  · exact goesPure
  · split
    · exact goesPure
    · exact goesBind goesIdentify fun _ => goesBind goesModify fun _ => goesPure

theorem goesAttribute (attributes : List Attribute) (a : Attribute) : Goes f (bindAttribute attributes a) := by
  refine goesRead ?_
  split
  · exact goesPure
  refine goesGet fun s => ?_
  simp only
  split
  · exact goesPure
  · exact goesBind goesIdentify fun _ => goesBind goesModify fun _ => goesPure

theorem goesAnchor (attributes : List Attribute) : Goes f (bindAnchor attributes) := by
  refine goesGet fun s => ?_
  split
  · exact goesPure
  · exact goesBind (fun s => ⟨_, _, rfl⟩) fun _ => goesBind goesModify fun _ => goesPure

theorem goesSettle (chunk : String) : Goes f (settle chunk) := by
  intro s
  obtain ⟨c, settled, _⟩ := @outSettled f s chunk
  exact ⟨c, s, settled⟩

theorem goesWrap (chunk : String) : Goes f (wrapChunk chunk) := by
  refine goesBind (goesSettle chunk) fun c => ?_
  simp only
  split
  · exact goesPure
  · exact goesBind goesIdentify fun _ => goesBind goesModify fun _ => goesPure

theorem goesOnly (name : String) (attributes : List Attribute) (chunk : String) :
    Goes f (bindOnlyText name attributes chunk) := by
  refine goesBind (goesSettle chunk) fun c => ?_
  simp only
  split
  · exact goesPure
  · exact goesBind goesIdentify fun _ => goesBind goesModify fun _ => goesPure

theorem goesChunks (text : String) : Goes f (chunksOf text) := fun _ => ⟨_, _, outChunks⟩

mutual

theorem goesElements {change : List Attribute → Rendering (List Attribute)}
    (h : ∀ attributes, Goes f (change attributes)) : (n : Node) → Goes f (onElements change n)
  | .text _ _ => goesPure
  | .element _ attributes children =>
    goesBind (h attributes) fun _ => goesBind (goesAllElements h children) fun _ => goesPure

theorem goesAllElements {change : List Attribute → Rendering (List Attribute)}
    (h : ∀ attributes, Goes f (change attributes)) : (nodes : List Node) → Goes f (onAllElements change nodes)
  | [] => goesPure
  | n :: rest =>
    goesBind (goesElements h n) fun _ => goesBind (goesAllElements h rest) fun _ => goesPure

end

mutual

theorem goesElementTexts : (n : Node) → Goes f (bindElementTexts n)
  | .text .plain text => goesBind (goesChunks text) fun parts => goesMap goesWrap parts
  | .text .hidden _ => goesPure
  | .text (.aside _) _ => goesPure
  | .element name attributes children => by
    have inner := goesTexts children
    rcases onlyOrMixed children with ⟨text, rfl⟩ | mixed
    · rw [onlyText]
      refine goesBind (goesChunks text) fun parts => ?_
      split
      · exact goesBind (goesOnly _ _ _) fun _ => goesPure
      · exact goesBind (goesMap goesWrap _) fun _ => goesPure
    · rw [mixedTexts mixed]
      exact goesBind inner fun _ => goesPure

theorem goesTexts : (nodes : List Node) → Goes f (bindTexts nodes)
  | [] => goesPure
  | n :: rest => goesBind (goesElementTexts n) fun _ => goesBind (goesTexts rest) fun _ => goesPure

end

theorem goesTree {tree : List Node} : Goes f (settleTree tree) :=
  goesBind (goesAllElements (fun attributes => goesFold goesEvent attributes attributes) tree) fun tree =>
    goesBind (goesAllElements (fun attributes => goesFold goesAttribute attributes attributes) tree) fun tree =>
      goesBind (goesTexts tree) (goesAllElements goesAnchor)

end Goes

section Call

def leftIn (f : Factory) (s : State) (output : String) : List Live :=
  (placeholders f.number output).filterMap s.live?

/-- The tree of some markup and what settling it gives, if that starts at `s₁`. -/
structure Settling (f : Factory) (s₁ : State) (markup : String) (tree final : List Node) (s₂ : State) : Prop where
  read : readTree markup = .ok tree
  settled : out (settleTree tree) f s₁ = (.ok final, s₂)
  pending : s₁.live ≠ []

inductive CallEnds (nested : Nested) (template : String) (values : List Value) (line : Int) (f : Factory)
    (s : State) : Except RenderError Value × State → Prop where
  | unfilled {e s₁} (filling : out (filled template values line) f s = (.error e, s₁)) :
      CallEnds nested template values line f s (.error e, s₁)
  | still {markup s₁} (filling : out (filled template values line) f s = (.ok markup, s₁)) (none : s₁.live = []) :
      CallEnds nested template values line f s (out (finished nested markup) f s₁)
  | rejected {markup s₁ e} (filling : out (filled template values line) f s = (.ok markup, s₁))
      (pending : s₁.live ≠ []) (read : readTree markup = .error e) :
      CallEnds nested template values line f s (.error (.markup e), s₁)
  | unreachable {markup s₁ tree final s₂ live rest}
      (filling : out (filled template values line) f s = (.ok markup, s₁))
      (settling : Settling f s₁ markup tree final s₂) (left : leftIn f s₂ (writeTree final) = live :: rest) :
      CallEnds nested template values line f s
        (.error (.template (.unreachable f.component.className live.slot.expression live.slot.line)),
          { s₂ with live := [] })
  | settled {markup s₁ tree final s₂} (filling : out (filled template values line) f s = (.ok markup, s₁))
      (settling : Settling f s₁ markup tree final s₂) (left : leftIn f s₂ (writeTree final) = []) :
      CallEnds nested template values line f s
        (out (finished nested (writeTree final)) f { s₂ with live := [] })

theorem outLive {markup : String} {e : MarkupError} (read : readTree markup = .error e) :
    out (settleLive markup) f s = (.error (.markup e), s) := by
  rw [settleLive, outBind, outRead]
  simp only [read]
  rfl

theorem outSettling {markup : String} {tree final : List Node} {s₂ : State}
    (settling : Settling f s markup tree final s₂) :
    out (settleLive markup) f s = match leftIn f s₂ (writeTree final) with
      | [] => (.ok (writeTree final), { s₂ with live := [] })
      | live :: _ =>
        (.error (.template (.unreachable f.component.className live.slot.expression live.slot.line)),
          { s₂ with live := [] }) := by
  rw [settleLive, outBind, outRead]
  simp only [settling.read]
  rw [outBind, show out (pure tree) f s = (.ok tree, s) from rfl]
  simp only
  rw [outBind, settling.settled]
  simp only
  rw [outBind, outGet, leftIn]
  simp only
  generalize (placeholders f.number (writeTree final)).filterMap s₂.live? = left
  cases left <;> rfl

variable {nested : Nested} {template : String} {values : List Value} {line : Int}

theorem callEnds : CallEnds nested template values line f s (out (call nested template values line) f s) := by
  rw [call, outBind]
  rcases filling : out (filled template values line) f s with ⟨e | markup, s₁⟩
  · exact .unfilled filling
  simp only
  rw [outBind, outGet]
  simp only
  cases pending : s₁.live with
  | nil => exact .still filling pending
  | cons l rest =>
    have some : s₁.live ≠ [] := by simp [pending]
    rw [List.isEmpty_cons, if_neg Bool.false_ne_true, outBind]
    cases read : readTree markup with
    | error e =>
      rw [outLive read]
      exact .rejected filling some read
    | ok tree =>
      obtain ⟨final, s₂, settled⟩ := @goesTree f tree s₁
      have settling : Settling f s₁ markup tree final s₂ := ⟨read, settled, some⟩
      rw [outSettling settling]
      cases left : leftIn f s₂ (writeTree final) with
      | nil => exact .settled filling settling left
      | cons live rest => exact .unreachable filling settling left

end Call

section Reached

variable {template : String} {values : List Value} {line : Int} {nested : Nested} {marked : List (String × Live)}

structure Fills (f : Factory) (s s' : State) (marked : List (String × Live)) : Prop where
  same : ∃ next put, s' = { s with
    nextPlaceholder := next
    live := s.live ++ marked
    deferred := s.deferred ++ put }
  later : s.nextPlaceholder ≤ s'.nextPlaceholder
  keys : ∃ numbers : List Nat, marked.map (·.1) = numbers.map (Placeholder.text f.number) ∧
    numbers.Pairwise (· < ·) ∧ ∀ n ∈ numbers, s.nextPlaceholder ≤ n ∧ n < s'.nextPlaceholder

theorem fillsSame : Fills f s s [] :=
  ⟨⟨s.nextPlaceholder, [], by simp⟩, Nat.le_refl _, [], rfl, .nil, fun _ h => absurd h List.not_mem_nil⟩

theorem fillsDefer (content : Deferred) : Keeps (fun s' => ∃ marked, Fills f s s' marked) f (defer content) := by
  rintro s₁ ⟨marked, ⟨next, put, rfl⟩, later, numbers, keys, sorted, within⟩
  rw [outDefer]
  refine ⟨marked, ⟨next + 1, put ++ [(Placeholder.text f.number next, content)], ?_⟩, Nat.le_succ_of_le later,
    numbers, keys, sorted, fun n hn => ⟨(within n hn).1, Nat.lt_succ_of_lt (within n hn).2⟩⟩
  simp only [List.append_assoc]

theorem fillsMark (v : Value) (slot : Slot) : Keeps (fun s' => ∃ marked, Fills f s s' marked) f (mark v slot) := by
  rintro s₁ ⟨marked, ⟨next, put, rfl⟩, later, numbers, keys, sorted, within⟩
  cases translatable : slot.translatable with
  | false =>
    rw [mark, outBind, outRead]
    simp only [translatable, Bool.not_false, if_true]
    exact ⟨marked, ⟨next, put, rfl⟩, later, numbers, keys, sorted, within⟩
  | true =>
    rw [outMark translatable]
    refine ⟨marked ++ [(Placeholder.text f.number next, ⟨v, slot⟩)], ⟨next + 1, put, ?_⟩, Nat.le_succ_of_le later,
      numbers ++ [next], ?_, ?_, ?_⟩
    · simp only [List.append_assoc]
    · rw [List.map_append, List.map_append, keys]
      rfl
    · refine List.pairwise_append.mpr ⟨sorted, List.pairwise_singleton _ _, fun n hn m hm => ?_⟩
      rw [List.mem_singleton.mp hm]
      exact (within n hn).2
    · refine List.forall_mem_append.mpr ⟨fun n hn => ⟨(within n hn).1, Nat.lt_succ_of_lt (within n hn).2⟩, ?_⟩
      exact List.forall_mem_singleton.mpr ⟨later, Nat.lt_succ_self next⟩

theorem fillsFilled : ∃ marked, Fills f s (out (filled template values line) f s).2 marked :=
  keepsFilled fillsDefer (fun v slot _ => fillsMark v slot) s ⟨[], fillsSame⟩

def Spliced (s s' : State) : Prop := ∃ page deferred, s' = { s with page, deferred }

theorem finishedSpliced {markup : String} : Spliced s (out (finished nested markup) f s).2 := by
  refine keepsFinished (fun key => keepsGet ?_) (fun c => keepsGet ?_) s ⟨_, _, rfl⟩
  · rintro _ ⟨page, deferred, rfl⟩
    split
    · exact ⟨page, deferred, rfl⟩
    · exact ⟨page, _, rfl⟩
  · rintro _ ⟨page, deferred, rfl⟩
    simp only
    rcases (nested c).run page with ⟨_ | _, page'⟩
    · exact ⟨page', deferred, rfl⟩
    · exact ⟨page', deferred, rfl⟩

theorem splicedRecords (spliced : Spliced s s') : s'.records = s.records ∧ s'.live = s.live := by
  obtain ⟨page, deferred, rfl⟩ := spliced
  exact ⟨rfl, rfl⟩

inductive CallSucceeds (nested : Nested) (template : String) (values : List Value) (line : Int) (f : Factory)
    (s : State) (v : Value) (s' : State) : Prop where
  | still {markup s₁} (filling : out (filled template values line) f s = (.ok markup, s₁)) (none : s₁.live = [])
      (ended : out (finished nested markup) f s₁ = (.ok v, s')) (records : s'.records = s₁.records) :
      CallSucceeds nested template values line f s v s'
  | settled {markup s₁ tree final s₂} (filling : out (filled template values line) f s = (.ok markup, s₁))
      (settling : Settling f s₁ markup tree final s₂) (left : leftIn f s₂ (writeTree final) = [])
      (ended : out (finished nested (writeTree final)) f { s₂ with live := [] } = (.ok v, s'))
      (records : s'.records = s₂.records) : CallSucceeds nested template values line f s v s'

theorem callSucceeds {v : Value} (done : out (call nested template values line) f s = (.ok v, s')) :
    CallSucceeds nested template values line f s v s' := by
  have ends := @callEnds f s nested template values line
  rw [done] at ends
  generalize is : ((.ok v, s') : Except RenderError Value × State) = r at ends
  have kept {markup : String} {s₁ : State} (ended : out (finished nested markup) f s₁ = (.ok v, s')) :
      s'.records = s₁.records := by
    have spliced := @finishedSpliced f s₁ nested markup
    rw [ended] at spliced
    exact (splicedRecords spliced).1
  cases ends with
  | unfilled | rejected | unreachable => cases is
  | still filling none => exact .still filling none is.symm (kept is.symm)
  | settled filling settling left =>
    have records := kept is.symm
    exact .settled filling settling left is.symm records

def KeysOnce (s : State) : Prop := (s.live.map (·.1)).Nodup

theorem fillsOnce (keyed : Keyed f s) (once : KeysOnce s) (fills : Fills f s s' marked) : KeysOnce s' := by
  obtain ⟨⟨next, put, rfl⟩, later, numbers, keys, sorted, within⟩ := fills
  show ((s.live ++ marked).map (·.1)).Nodup
  rw [List.map_append, keys]
  refine List.nodup_append.mpr ⟨once, ?_, ?_⟩
  · exact sorted.map _ fun n m less same => Nat.ne_of_lt less (textInjective same)
  · intro key hk key' hk' same
    obtain ⟨l, hl, rfl⟩ := List.mem_map.mp hk
    obtain ⟨n, hn, rfl⟩ := List.mem_map.mp hk'
    obtain ⟨m, given, is⟩ := keyed.live l hl
    exact Nat.not_lt.mpr (within n hn).1 (textInjective (is.symm.trans same) ▸ given)

structure Steady (f : Factory) (s : State) : Prop where
  complete : s.written = distinct (f.slots.flatMap (·.writes))
  once : KeysOnce s

theorem steadyFills (sound : Sound f s) (steady : Steady f s) (fills : Fills f s s' marked) : Steady f s' := by
  have once := fillsOnce sound.keyed steady.once fills
  obtain ⟨⟨next, put, rfl⟩, _⟩ := fills
  exact ⟨steady.complete, once⟩

theorem steadySpliced (steady : Steady f s) (spliced : Spliced s s') : Steady f s' := by
  obtain ⟨page, deferred, rfl⟩ := spliced
  exact ⟨steady.complete, steady.once⟩

theorem steadySettling {markup : String} {tree final : List Node} (sound : Sound f s) (steady : Steady f s)
    (settling : Settling f s markup tree final s') : Steady f { s' with live := [] } := by
  have ready : Ready f s := ⟨sound.known, sound.keyed, steady.complete⟩
  obtain ⟨s₁, s₂, s₃, first, second, third, stages⟩ := treeStages ready settling.settled
  have still := stillTrans (stillTrans (settlesStill stages.events) (settlesStill stages.attributes))
    (stillTrans (settlesStill stages.texts) (settlesStill stages.anchors))
  obtain ⟨page, records, rfl⟩ := still
  exact ⟨steady.complete, List.nodup_nil⟩

theorem steadyCall (sound : Sound f s) (steady : Steady f s) :
    Steady f (out (call nested template values line) f s).2 := by
  have filling {r : Except RenderError String} {s₁ : State}
      (h : out (filled template values line) f s = (r, s₁)) : Sound f s₁ ∧ Steady f s₁ := by
    obtain ⟨marked, fills⟩ := @fillsFilled f s template values line
    have sound' := @soundFilled f template values line s sound
    rw [h] at fills sound'
    exact ⟨sound', steadyFills sound steady fills⟩
  generalize ended : out (call nested template values line) f s = r
  have ends := @callEnds f s nested template values line
  rw [ended] at ends
  cases ends with
  | unfilled filled => exact (filling filled).2
  | still filled none => exact steadySpliced (filling filled).2 finishedSpliced
  | rejected filled pending read => exact (filling filled).2
  | unreachable filled settling left => exact steadySettling (filling filled).1 (filling filled).2 settling
  | settled filled settling left =>
    exact steadySpliced (steadySettling (filling filled).1 (filling filled).2 settling) finishedSpliced

theorem steadyReached (h : Reached f s) : Steady f s := by
  induction h with
  | start made =>
    obtain ⟨_, _, _, rfl⟩ := newFactoryOk made
    exact ⟨rfl, List.nodup_nil⟩
  | call nested template values line reached ih => exact steadyCall (soundReached reached) ih
  | elsewhere page trace _ ih => exact ⟨ih.complete, ih.once⟩

theorem readyFilled {r : Except RenderError String} {s₁ : State} (reached : Reached f s)
    (filling : out (filled template values line) f s = (r, s₁)) :
    Ready f s₁ ∧ KeysOnce s₁ ∧ ∃ marked, Fills f s s₁ marked := by
  obtain ⟨marked, fills⟩ := @fillsFilled f s template values line
  have sound := @soundFilled f template values line s (soundReached reached)
  rw [filling] at fills sound
  have steady := steadyFills (soundReached reached) (steadyReached reached) fills
  exact ⟨⟨sound.known, sound.keyed, steady.complete⟩, steady.once, marked, fills⟩

end Reached

end LiveMarkup.Render
