import LiveMarkup.Proofs.Render.Emitted
import LiveMarkup.Proofs.Render.Kept
import LiveMarkup.Proofs.Render.Leaked
/-! What becomes of the placeholders of a call that succeeds. Those of its settled markup are taken out of the body
with the contents that wait for them. The script is made of texts with marks between them that no placeholder holds. -/
namespace LiveMarkup.Render
open Analysis Client Markup Text

section Unmarked

variable {number : Nat} {sep : Char} {a b cs : List Char} {text w s t : String}

def Unmarked (number : Nat) (text : List Char) : Prop := ∀ n, ¬(Placeholder.text number n).toList <:+: text

theorem clearUnmarked (clear : Clear number a) : Unmarked number a := fun _ => clear _ textFront

theorem unmarkedWithin (h : Unmarked number b) (within : a <:+: b) : Unmarked number a :=
  fun n inside => h n (inside.trans within)

theorem unmarkedNil : Unmarked number [] := clearUnmarked clearNil

theorem unmarkedAround (divides : Divides sep) (ha : Unmarked number a) (hb : Unmarked number b) :
    Unmarked number (a ++ sep :: b) := fun n inside =>
  (infixDivided (dividesFront divides textFront) inside).elim (ha n) (hb n)

theorem unmarkedFixed (apart : ¬['_', 'z'] <:+: a) : Unmarked number a := by
  intro n inside
  obtain ⟨more, lead⟩ := frontLead (@textFront number n)
  refine apart (List.IsInfix.trans ?_ inside)
  rw [lead, leadForm]
  exact ⟨['_'], ['i', 'n', 'c', '_'] ++ (nonce number ++ ['_']) ++ more, by simp [brand]⟩

def Walled (w : String) : Prop :=
  w.toList.head?.any (decide <| Divides ·) = true ∧ w.toList.getLast?.any (decide <| Divides ·) = true ∧
    ¬['_', 'z'] <:+: w.toList

instance : Decidable (Walled w) := by unfold Walled; infer_instance

theorem unmarkedSpliced (walled : Walled w) (ha : Unmarked number s.toList) (hb : Unmarked number t.toList) :
    Unmarked number (s ++ w ++ t).toList := by
  obtain ⟨opens, closes, apart⟩ := walled
  obtain ⟨c, first, opens⟩ := (Option.any_eq_true _ _).mp opens
  obtain ⟨d, last, closes⟩ := (Option.any_eq_true _ _).mp closes
  rw [decide_eq_true_eq] at opens closes
  obtain ⟨inner, written⟩ := List.getLast?_eq_some_iff.mp last
  rw [String.toList_append, String.toList_append]
  rw [written] at first apart ⊢
  rw [← List.append_assoc, List.append_assoc, List.singleton_append]
  refine unmarkedAround closes ?_ hb
  cases inner with
  | nil => rwa [List.append_nil]
  | cons e inner =>
    obtain rfl : e = c := Option.some.inj first
    refine unmarkedAround opens ha (unmarkedFixed fun inside => apart (inside.trans ?_))
    exact ⟨[e], [d], rfl⟩

theorem unmarkedBehind (walled : Walled w) (h : Unmarked number t.toList) :
    Unmarked number (w ++ t).toList := by
  have spliced := @unmarkedSpliced number w "" t walled unmarkedNil h
  rwa [String.empty_append] at spliced

theorem unmarkedBefore (walled : Walled w) (h : Unmarked number s.toList) :
    Unmarked number (s ++ w).toList := by
  have spliced := @unmarkedSpliced number w s "" walled h unmarkedNil
  rwa [String.append_empty] at spliced

theorem unmarkedBetween {texts : List String} (walled : Walled w)
    (h : ∀ text ∈ texts, Unmarked number text.toList) : Unmarked number (w.intercalate texts).toList := by
  induction texts with
  | nil => exact unmarkedNil
  | cons first rest ih =>
    obtain ⟨own, others⟩ := List.forall_mem_cons.mp h
    cases rest with
    | nil => rwa [String.intercalate_singleton]
    | cons second rest =>
      rw [String.intercalate_cons_cons]
      exact unmarkedSpliced walled own (ih others)

def MarkFirst (text : String) : Prop := ∃ c ∈ text.toList.head?, Divides c

theorem markAppend (h : MarkFirst s) : MarkFirst (s ++ t) := by
  obtain ⟨c, front, divides⟩ := h
  obtain ⟨inner, written⟩ := List.head?_eq_some_iff.mp front
  exact ⟨c, by rw [String.toList_append, written]; rfl, divides⟩

theorem unmarkedMet (first : MarkFirst t) (ha : Unmarked number s.toList) (hb : Unmarked number t.toList) :
    Unmarked number (s ++ t).toList := by
  obtain ⟨c, front, divides⟩ := first
  obtain ⟨inner, written⟩ := List.head?_eq_some_iff.mp front
  rw [written] at hb
  rw [String.toList_append, written]
  exact unmarkedAround divides ha (unmarkedWithin hb (List.suffix_cons _ _).isInfix)

theorem unmarkedRun {texts : List String} (h : ∀ text ∈ texts, Unmarked number text.toList ∧ MarkFirst text) :
    Unmarked number (String.join texts).toList := by
  induction texts with
  | nil => exact unmarkedNil
  | cons first rest ih =>
    obtain ⟨⟨own, _⟩, others⟩ := List.forall_mem_cons.mp h
    rw [String.join_cons]
    cases rest with
    | nil => rwa [String.join_nil, String.append_empty]
    | cons second rest =>
      refine unmarkedMet ?_ own (ih others)
      rw [String.join_cons]
      exact markAppend (others second List.mem_cons_self).2

theorem markWords {n : Nat} : ∀ c ∈ (Placeholder.text number n).toList, isWord c = true := by
  have letters : ∀ c ∈ brand ++ "0123456789abcdef".toList, isWord c = true := allSeen (by decide)
  exact fun c mem => letters c (keyLetters c mem)

theorem stripWords {key : List Char} (words : ∀ c ∈ key, isWord c = true) (front : key <+: stripFrom true cs) :
    key <+: cs := by
  induction key generalizing cs with
  | nil => exact List.nil_prefix
  | cons k key ih =>
    cases cs with
    | nil => exact front
    | cons c rest =>
      rw [stripFrom] at front
      · obtain ⟨rfl, front⟩ := List.cons_prefix_cons.mp front
        obtain ⟨own, others⟩ := List.forall_mem_cons.mp words
        rw [own] at front
        exact List.cons_prefix_cons.mpr ⟨rfl, ih others front⟩
      · simp

theorem unmarkedStripped (h : Unmarked number text.toList) : Unmarked number (stripReceiver text).toList := by
  intro n inside
  refine h n ?_
  rw [stripReceiver, String.toList_ofList] at inside
  have words := @markWords number n
  obtain ⟨k, key, same⟩ : ∃ k key, (Placeholder.text number n).toList = k :: key :=
    List.exists_cons_of_ne_nil (@textFront number n).1
  rw [same] at inside words ⊢
  obtain ⟨own, others⟩ := List.forall_mem_cons.mp words
  generalize text.toList = cs at inside
  generalize false = w at inside
  fun_induction stripFrom w cs with
  | case1 => exact inside
  | case2 rest ih => exact (ih inside).trans (List.suffix_append ['t', 'h', 'i', 's', '.'] rest).isInfix
  | case3 w c rest plain ih =>
    rcases List.infix_cons_iff.mp inside with front | inside
    · obtain ⟨rfl, front⟩ := List.cons_prefix_cons.mp front
      rw [own] at front
      exact (List.cons_prefix_cons.mpr ⟨rfl, stripWords others front⟩).isInfix
    · exact (ih inside).trans (List.suffix_cons _ _).isInfix

end Unmarked

section Scripts

variable {number : Nat} {c : Component} {r : Records} {literals : List (String × String)} {text : String}

structure NamesUnmarked (number : Nat) (c : Component) (r : Records) : Prop where
  fields : ∀ name ∈ r.mentions, Unmarked number name.toList ∧
    ∀ literal, fieldLiteral c name = .ok literal → Unmarked number literal.toList
  ids : ∀ id ∈ r.ids, Unmarked number id.toList
  params : ∀ h ∈ r.handlers, ∀ param ∈ h.params, Unmarked number param.toList

theorem lineUnmarked {b : Binding} (id : Unmarked number b.id.toList) (source : Clear number b.source.toList)
    (named : ∀ name ∈ b.attribute?, Clear number name.toList) :
    Unmarked number (updateLine b).toList ∧ MarkFirst (updateLine b) := by
  have stripped := unmarkedStripped (clearUnmarked source)
  unfold updateLine
  split
  · refine ⟨?_, markAppend (markAppend (markAppend (markAppend ⟨' ', by decide⟩)))⟩
    exact unmarkedBefore (by decide) (unmarkedSpliced (by decide) (unmarkedBehind (by decide) id) stripped)
  · next name held =>
    have quoted := clearUnmarked (clearQuoted (named name held))
    refine ⟨?_, markAppend (markAppend (markAppend (markAppend (markAppend (markAppend ⟨' ', by decide⟩)))))⟩
    refine unmarkedBefore (by decide) (unmarkedSpliced (by decide) (unmarkedSpliced (by decide) ?_ quoted) stripped)
    exact unmarkedBehind (by decide) id

theorem fieldUnmarked {name literal : String} (h : Unmarked number name.toList)
    (started : Unmarked number literal.toList) : Unmarked number (Statement.field name literal).write.toList :=
  unmarkedBefore (w := ";\n") (by decide) (unmarkedSpliced (w := " = ") (by decide)
    (unmarkedBehind (w := "  let ") (by decide) h) started)

theorem elementUnmarked {id : String} (h : Unmarked number id.toList) :
    Unmarked number (Statement.element id).write.toList :=
  unmarkedBefore (w := "\"]');\n") (by decide) (unmarkedSpliced (w := " = document.querySelector('[data-zid=\"")
    (by decide) (unmarkedBehind (w := "  const ") (by decide) h) h)

theorem functionUnmarked {name params body : String} (named : ¬['_', 'z'] <:+: name.toList)
    (given : ¬['_', 'z'] <:+: params.toList) (inside : Unmarked number body.toList) :
    Unmarked number (Statement.function name params body).write.toList := by
  have opening := @unmarkedBehind number "  function " name (by decide) (unmarkedFixed named)
  have head := unmarkedSpliced (w := "(") (by decide) opening (unmarkedFixed given)
  exact unmarkedBefore (w := "  \x7d\n") (by decide) (unmarkedSpliced (w := ") \x7b\n") (by decide) head inside)

theorem handlerUnmarked {h : Handler} (id : Unmarked number h.id.toList) (event : Clear number h.event.toList)
    (params : ∀ param ∈ h.params, Unmarked number param.toList) (source : Clear number h.source.toList) :
    Unmarked number (Statement.handler h).write.toList := by
  have opening := unmarkedBehind (w := "  ") (by decide) id
  have target := unmarkedSpliced (w := ".") (by decide) opening (clearUnmarked event)
  have given := unmarkedSpliced (w := " = (") (by decide) target (unmarkedBetween (w := ", ") (by decide) params)
  have body := unmarkedStripped (clearUnmarked source)
  have start := unmarkedSpliced (w := ") => \x7b ") (by decide) given body
  exact unmarkedBefore (w := "; __update(); \x7d;\n") (by decide) start

theorem chainUnmarked {a : AsyncBinding} (id : Unmarked number a.id.toList) (promise : Clear number a.promise.toList)
    (settled : Clear number a.thenCallback.toList) (failed : ∀ code ∈ a.catchCallback?, Clear number code.toList) :
    Unmarked number (Statement.chain a).write.toList := by
  have stripped {code : String} (clear : Clear number code.toList) := unmarkedStripped (clearUnmarked clear)
  have opening := unmarkedBehind (w := "  ") (by decide) (stripped promise)
  have callback := unmarkedSpliced (w := "\n    .then(") (by decide) opening (stripped settled)
  have start := unmarkedSpliced (w := ")\n    .then((r) => __fill(") (by decide) callback id
  unfold Statement.write
  simp only
  split
  · exact unmarkedBefore (w := ";\n") (by decide) (unmarkedBefore (w := ", r))") (by decide) start)
  · next code held =>
    have filled := unmarkedBefore (w := ", r))") (by decide) start
    have caught := unmarkedSpliced (w := "\n    .catch((e) => __fill(") (by decide) filled id
    have last := unmarkedSpliced (w := ", (") (by decide) caught (stripped (failed code held))
    exact unmarkedBefore (w := ")(e)));\n") (by decide) last

theorem writtenMark : (s : Statement) → MarkFirst s.write
  | .field .. | .element .. => markAppend (markAppend (markAppend (markAppend ⟨' ', by decide⟩)))
  | .function .. => markAppend (markAppend (markAppend (markAppend (markAppend (markAppend ⟨' ', by decide⟩)))))
  | .handler .. => by
    refine markAppend (markAppend (markAppend (markAppend (markAppend (markAppend (markAppend (markAppend ?_)))))))
    exact ⟨' ', by decide⟩
  | .chain a => by
    have start (rest : String) : MarkFirst ("  " ++ stripReceiver a.promise ++ "\n    .then(" ++
        stripReceiver a.thenCallback ++ ")\n    .then((r) => __fill(" ++ a.id ++ ", r))" ++ rest) := by
      refine markAppend (markAppend (markAppend (markAppend (markAppend (markAppend (markAppend ?_))))))
      exact ⟨' ', by decide⟩
    unfold Statement.write
    simp only
    split
    · exact start _
    · exact markAppend (markAppend (markAppend (markAppend (start _))))

theorem bodyUnmarked {name params body : String} {cs : List Char} (named : ¬['_', 'z'] <:+: name.toList)
    (given : ¬['_', 'z'] <:+: params.toList) (written : body = String.ofList cs) (inside : ¬['_', 'z'] <:+: cs) :
    Unmarked number (Statement.function name params body).write.toList :=
  functionUnmarked named given (listedText written ▸ unmarkedFixed inside)

set_option maxRecDepth 10000 in
theorem helperUnmarked : ∀ s ∈ helperFunctions r, Unmarked number s.write.toList := by
  intro s mem
  rcases List.mem_append.mp mem with mem | mem
  · split at mem
    · obtain rfl := List.mem_singleton.mp mem
      exact bodyUnmarked (by decide) (by decide) rfl (by decide +kernel)
    · cases mem
  · split at mem
    · cases mem
    simp only [promiseFunctions, List.mem_cons, List.not_mem_nil, or_false] at mem
    rcases mem with rfl | rfl | rfl | rfl <;> exact bodyUnmarked (by decide) (by decide) rfl (by decide +kernel)

theorem scriptUnmarked (made : script c r = .ok text) (clear : RecordsClear number r) (named : NamesUnmarked number c r) :
    Unmarked number text.toList := by
  obtain ⟨literals, started, rfl⟩ := scriptMade made
  refine unmarkedBefore (w := "\x7d)();\n</script>") (by decide)
    (unmarkedBehind (w := "\n<script>\n(function() \x7b\n") (by decide) (unmarkedRun fun line written => ?_))
  obtain ⟨statement, mem, rfl⟩ := List.mem_map.mp written
  refine ⟨?_, writtenMark statement⟩
  have ids {id : String} (held : id ∈ r.ids) := named.ids id held
  rw [statementsShape, laterStatements] at mem
  simp only [List.mem_append, List.mem_singleton] at mem
  rcases mem with (field | element) | ((helper | rfl) | handler) | chain
  · obtain ⟨p, hp, rfl⟩ := List.mem_map.mp field
    have mention : p.1 ∈ r.mentions := memDistinct.mp (started.1 ▸ List.mem_map_of_mem hp)
    obtain ⟨name, literals⟩ := named.fields _ mention
    exact fieldUnmarked name (literals _ (started.2 p hp))
  · obtain ⟨id, known, rfl⟩ := List.mem_map.mp element
    exact elementUnmarked (ids (memDistinct.mp known))
  · exact helperUnmarked statement helper
  · refine functionUnmarked (by decide) (by decide) (unmarkedRun fun line mem => ?_)
    obtain ⟨b, hb, rfl⟩ := List.mem_map.mp mem
    obtain ⟨source, names⟩ := clear.bindings b hb
    exact lineUnmarked (ids (by simp [Records.ids]; grind)) source names
  · obtain ⟨h, hh, rfl⟩ := List.mem_map.mp handler
    obtain ⟨source, event⟩ := clear.handlers h hh
    exact handlerUnmarked (ids (by simp [Records.ids]; grind)) event (named.params h hh) source
  · obtain ⟨a, ha, rfl⟩ := List.mem_map.mp chain
    obtain ⟨promise, settled, failed⟩ := clear.chains a ha
    exact chainUnmarked (ids (by simp [Records.ids]; grind)) promise settled failed

end Scripts

section Splicing

/-- How the pieces of settled markup come out in the body, from left to right. What waits for a placeholder stands in
its place, once; a placeholder that nothing waits for stays. -/
inductive Became (nested : Nested) :
    List (String × Deferred) → List Piece → List String → List (String × Deferred) → Prop where
  | nil {store} : Became nested store [] [] store
  | plain {store ps texts left} (text) (rest : Became nested store ps texts left) :
      Became nested store (.plain text :: ps) (text :: texts) left
  | content {store ps texts left key content text} (waits : store.find? (·.1 == key) = some (key, content))
      (comes : ComesTo nested content text) (rest : Became nested (store.filter (·.1 != key)) ps texts left) :
      Became nested store (.placeholder key :: ps) (text :: texts) left
  | foreign {store ps texts left key} (none : ∀ d ∈ store, d.1 ≠ key) (rest : Became nested store ps texts left) :
      Became nested store (.placeholder key :: ps) (key :: texts) left

/-- Each of the placeholders is one that content waits for, and no two are the same. -/
structure Owned (store : List (String × Deferred)) (keys : List String) : Prop where
  once : keys.Nodup
  waits : ∀ key ∈ keys, ∃ d ∈ store, d.1 = key

inductive Filled (nested : Nested) (store : List (String × Deferred)) : Piece → String → Prop where
  | plain (text) : Filled nested store (.plain text) text
  | content {key content text} (waits : (key, content) ∈ store) (comes : ComesTo nested content text) :
      Filled nested store (.placeholder key) text

variable {f : Factory} {s s' : State} {nested : Nested} {number : Nat} {store left : List (String × Deferred)}
  {ps : List Piece} {texts : List String}

theorem takenStore {key text : String} {content : Deferred}
    (waits : s.deferred.find? (·.1 == key) = some (key, content))
    (h : out (spliced nested (.placeholder key)) f s = (.ok text, s')) :
    s'.deferred = s.deferred.filter (·.1 != key) := by
  rw [spliced, takeDeferred?, outBind, outBind, outGet] at h
  simp only [waits] at h
  cases content with
  | markup html =>
    cases h
    rfl
  | component c => exact congrArg State.deferred (nestedShown h).2

theorem piecesBecame (h : out (ps.mapM (spliced nested)) f s = (.ok texts, s')) :
    Became nested s.deferred ps texts s'.deferred := by
  induction ps generalizing s texts with
  | nil =>
    cases h
    exact .nil
  | cons p rest ih =>
    rw [List.mapM_cons] at h
    obtain ⟨text, s₁, first, h⟩ := outOk.mp h
    obtain ⟨others, _, behind, last⟩ := outOk.mp h
    cases last
    have later := ih behind
    cases p with
    | plain text =>
      cases first
      exact .plain text later
    | placeholder key =>
      cases found : s.deferred.find? (·.1 == key) with
      | none =>
        rw [spliced, takeDeferred?, outBind, outBind, outGet] at first
        simp only [found] at first
        cases first
        exact .foreign (fun d hd same => List.find?_eq_none.mp found d hd (beq_iff_eq.mpr same)) later
      | some entry =>
        obtain ⟨own, content⟩ := entry
        obtain rfl : own = key := by simpa using List.find?_some found
        have comes := ownShown found first
        refine .content found comes ?_
        exact takenStore found first ▸ later

theorem becameLeft (h : Became nested store ps texts left) :
    (∀ d ∈ left, d ∈ store) ∧ ∀ key ∈ keysOf ps, ∀ d ∈ left, d.1 ≠ key := by
  induction h with
  | nil => exact ⟨fun _ mem => mem, fun _ none => absurd none List.not_mem_nil⟩
  | plain _ _ ih => exact ih
  | content _ _ _ ih =>
    refine ⟨fun d hd => (List.mem_filter.mp (ih.1 d hd)).1, List.forall_mem_cons.mpr ⟨fun d hd => ?_, ih.2⟩⟩
    simpa using (List.mem_filter.mp (ih.1 d hd)).2
  | foreign none _ ih => exact ⟨ih.1, List.forall_mem_cons.mpr ⟨fun d hd => none d (ih.1 d hd), ih.2⟩⟩

theorem becameOwned (h : Became nested store ps texts left) (fronts : ∀ key ∈ keysOf ps, Front number key.toList)
    (clear : ∀ text ∈ texts, Clear number text.toList) : Owned store (keysOf ps) := by
  induction h with
  | nil => exact ⟨List.nodup_nil, fun _ none => absurd none List.not_mem_nil⟩
  | plain _ _ ih => exact ih fronts (List.forall_mem_cons.mp clear).2
  | @content store ps texts left key content text waits _ _ ih =>
    obtain ⟨once, others⟩ := ih (List.forall_mem_cons.mp fronts).2 (List.forall_mem_cons.mp clear).2
    have apart {other : String} (mem : other ∈ keysOf ps) : ∃ d ∈ store, d.1 = other ∧ other ≠ key := by
      obtain ⟨d, hd, rfl⟩ := others other mem
      obtain ⟨hd, differs⟩ := List.mem_filter.mp hd
      exact ⟨d, hd, rfl, by simpa using differs⟩
    refine ⟨List.nodup_cons.mpr ⟨fun mem => ?_, once⟩, List.forall_mem_cons.mpr ⟨?_, fun other mem => ?_⟩⟩
    · obtain ⟨_, _, _, differs⟩ := apart mem
      exact differs rfl
    · exact ⟨_, List.mem_of_find?_eq_some waits, rfl⟩
    · obtain ⟨d, hd, same, _⟩ := apart mem
      exact ⟨d, hd, same⟩
  | foreign none _ _ =>
    obtain ⟨own, _⟩ := List.forall_mem_cons.mp fronts
    exact absurd List.infix_rfl ((List.forall_mem_cons.mp clear).1 _ own)

theorem filledMore {more : List (String × Deferred)} {p : Piece} {text : String} (sub : ∀ d ∈ store, d ∈ more)
    (h : Filled nested store p text) : Filled nested more p text := by
  cases h with
  | plain => exact .plain _
  | content waits comes => exact .content (sub _ waits) comes

theorem ownedFilled (h : Became nested store ps texts left) (owned : Owned store (keysOf ps)) :
    List.Forall₂ (Filled nested store) ps texts := by
  induction h with
  | nil => exact .nil
  | plain text _ ih => exact .cons (.plain text) (ih owned)
  | @content store ps texts left key content text waits comes _ ih =>
    obtain ⟨apart, once⟩ := List.nodup_cons.mp owned.once
    refine .cons (.content (List.mem_of_find?_eq_some waits) comes) ?_
    have later : Owned (store.filter (·.1 != key)) (keysOf ps) := by
      refine ⟨once, fun other mem => ?_⟩
      obtain ⟨d, hd, rfl⟩ := owned.waits other (List.mem_cons_of_mem _ mem)
      refine ⟨d, List.mem_filter.mpr ⟨hd, ?_⟩, rfl⟩
      simpa using fun same : d.1 = key => apart (same ▸ mem)
    exact (ih later).imp fun _ _ => filledMore fun d hd => (List.mem_filter.mp hd).1
  | foreign none _ _ =>
    obtain ⟨d, hd, same⟩ := owned.waits _ List.mem_cons_self
    exact absurd same (none d hd)

def NonceFree (nested : Nested) (f : Factory) (store : List (String × Deferred)) (settled : String) : Prop :=
  ∀ texts, List.Forall₂ (Filled nested store) (Piece.split f.number settled) texts →
    ¬nonce f.number <:+: (String.join texts).toList

theorem textWithin {text : String} (mem : text ∈ texts) : text.toList <:+: (String.join texts).toList := by
  obtain ⟨before, after, rfl⟩ := List.append_of_mem mem
  rw [String.join_append, String.join_cons]
  exact ⟨(String.join before).toList, (String.join after).toList, by simp⟩

theorem nonceClear {cs : List Char} (none : ¬nonce number <:+: cs) : Clear number cs := by
  intro key front inside
  obtain ⟨more, lead⟩ := frontLead front
  exact none ((leadHeld (lead ▸ List.prefix_append _ more)).trans inside)

end Splicing

section Calls

/-- No placeholder of settled markup is live, and nothing waits for one any longer. The body is the markup with
contents in the place of placeholders. -/
structure Resolved (nested : Nested) (f : Factory) (s s' : State) (settled body : String) : Prop where
  live : ∀ key ∈ placeholders f.number settled, s.live? key = none
  deferred : ∀ key ∈ placeholders f.number settled, ∀ d ∈ s'.deferred, d.1 ≠ key
  body : ∃ texts, body = String.join texts ∧
    Became nested s.deferred (Piece.split f.number settled) texts s'.deferred

inductive Way (template : String) (values : List Value) (line : Int) (f : Factory) (s : State) (markup : String)
    (s₁ : State) : String → Records → Prop where
  | still (none : s₁.live = []) : Way template values line f s markup s₁ markup {}
  | settled {tokens final s₂ new} (course : Course template values line f s markup s₁ tokens final s₂)
      (gained : new.unnamed = placed f s₁ (Tree.ofTokens tokens)) :
      Way template values line f s markup s₁ (writeTree final) new

variable {f : Factory} {s s₁ s₂ s' : State} {nested : Nested} {template markup settled output body : String}
  {values : List Value} {line : Int} {v : Value} {new : Records} {tokens : List Token} {final : List Node}

theorem finishedResolved (done : out (finished nested settled) f s = (.ok v, s'))
    (live : ∀ key ∈ placeholders f.number settled, s₁.live? key = none) (store : s.deferred = s₁.deferred) :
    ∃ output body, v = .rendered output body (some f.number) ∧ Resolved nested f s₁ s' settled body ∧
      scripted f s'.records body = .ok v := by
  obtain ⟨body, splicing, result⟩ := finishedScripted done
  obtain ⟨output, rfl⟩ : ∃ output, v = .rendered output body (some f.number) := by
    unfold scripted at result
    split at result
    · exact ⟨_, (Except.ok.inj result).symm⟩
    · split at result
      · exact ⟨_, (Except.ok.inj result).symm⟩
      · cases result
  obtain ⟨texts, taken, rfl⟩ := spliceParts splicing
  have became := piecesBecame taken
  exact ⟨output, _, rfl, ⟨live, (becameLeft became).2, texts, rfl, store ▸ became⟩, result⟩

theorem callResolved (reached : Reached f s) (done : out (call nested template values line) f s = (.ok v, s')) :
    ∃ markup s₁ settled output body new, out (filled template values line) f s = (.ok markup, s₁) ∧
      v = .rendered output body (some f.number) ∧ Resolved nested f s₁ s' settled body ∧
      s'.records = s.records ++ new ∧ scripted f s'.records body = .ok v ∧
      Way template values line f s markup s₁ settled new := by
  cases callSucceeds done with
  | @still markup s₁ filling none ended records =>
    obtain ⟨_, _, _, fills⟩ := readyFilled reached filling
    have off : ∀ key ∈ placeholders f.number markup, s₁.live? key = Option.none := by
      intro key _
      rw [State.live?, none]
      rfl
    obtain ⟨output, body, is, resolved, result⟩ := finishedResolved ended off rfl
    refine ⟨markup, s₁, markup, output, body, {}, filling, is, resolved, ?_, result, .still none⟩
    rw [records, fillsRecords fills, Records.appendNone]
  | @settled markup s₁ tree final s₂ filling settling left ended records =>
    obtain ⟨tokens, read, same⟩ := bindOk.mp settling.read
    obtain rfl : Tree.ofTokens tokens = tree := pureOk.mp same
    obtain ⟨ready, _, _, fills⟩ := readyFilled reached filling
    obtain ⟨new, change⟩ := treePlaced ready settling.settled
    have off : ∀ key ∈ placeholders f.number (writeTree final), s₁.live? key = none := by
      have same : s₂.live? = s₁.live? := by rw [change.same]; rfl
      exact same ▸ List.filterMap_eq_nil_iff.mp left
    obtain ⟨output, body, is, resolved, result⟩ := finishedResolved ended off (by rw [change.same])
    refine ⟨markup, s₁, writeTree final, output, body, new, filling, is, resolved, ?_, result,
      .settled ⟨filling, read, settling.settled⟩ change.gained⟩
    rw [records, change.same, ← fillsRecords fills]

theorem bodyClear (resolved : Resolved nested f s₁ s' settled body) (free : NonceFree nested f s₁.deferred settled) :
    Clear f.number body.toList ↔ Owned s₁.deferred (placeholders f.number settled) := by
  obtain ⟨texts, rfl, became⟩ := resolved.body
  constructor
  · intro clear
    exact becameOwned became (fun _ => foundFronts) fun text mem key front inside =>
      clear key front (inside.trans (textWithin mem))
  · intro owned
    exact nonceClear (free texts (ownedFilled became owned))

theorem outputUnmarked {r : Records} (result : scripted f r body = .ok (.rendered output body (some f.number)))
    (clear : RecordsClear f.number r) (named : NamesUnmarked f.number f.component r) :
    Unmarked f.number output.toList ↔ Unmarked f.number body.toList := by
  unfold scripted at result
  split at result
  · cases result
    exact Iff.rfl
  split at result
  · next script made =>
    cases result
    rw [String.toList_append]
    refine ⟨fun h => unmarkedWithin h (List.prefix_append _ _).isInfix, fun h => ?_⟩
    have own := scriptUnmarked made clear named
    obtain ⟨literals, _, rfl⟩ := scriptMade made
    rw [← String.toList_append]
    exact unmarkedMet (markAppend (markAppend ⟨'\n', by decide⟩)) h own
  · cases result

theorem waySealed (reached : Reached f s) (code : CodeClear f)
    (filling : out (filled template values line) f s = (.ok markup, s₁))
    (gained : new.unnamed = placed f s₁ (Tree.ofTokens tokens)) (shown : ShownClear f s₁)
    (own : OwnOnly f s₁ (Tree.ofTokens tokens)) :
    RecordsClear f.number new ↔ Sealed f s₁ (Tree.ofTokens tokens) := by
  obtain ⟨ready, _⟩ := readyFilled reached filling
  rw [← clearUnnamed, gained]
  exact placedClear ready.known ready.keyed code shown own

theorem stillOwned (filling : out (filled template values line) f s = (.ok markup, s₁)) (none : s₁.live = [])
    (written : standing f.number markup.toList = keysOf (layout template values line f s).pieces) :
    Owned s₁.deferred (placeholders f.number markup) := by
  have spelt := filledSpelt filling
  have scanned : (placeholders f.number markup).Sublist (keysOf (layout template values line f s).pieces) := by
    have found := @scanStanding f.number markup.toList
    rwa [String.ofList_toList, written] at found
  refine ⟨givenNodup.sublist (scanned.trans layoutInOrder.pieces), fun key mem => ?_⟩
  rcases spelt.known key (scanned.subset mem) with content | live
  · obtain ⟨d, hd, same⟩ := List.mem_map.mp content
    exact ⟨d, spelt.deferred ▸ List.mem_append_right _ hd, same⟩
  · rw [none] at live
    cases live

theorem settledOwned (reached : Reached f s) (course : Course template values line f s markup s₁ tokens final s₂)
    (plain : Unmistaken f s₁ (layout template values line f s).pieces markup tokens final)
    (bare : tagKeys f.number final = [])
    (off : ∀ key ∈ placeholders f.number (writeTree final), s₁.live? key = none) :
    Owned s₁.deferred (placeholders f.number (writeTree final)) := by
  obtain ⟨ready, _⟩ := readyFilled reached course.filling
  have spelt := filledSpelt course.filling
  have drawn : (textKeys f.number (Tree.ofTokens tokens)).Sublist (keysOf (layout template values line f s).pieces) := by
    rw [treeKeys plain.joined]
    exact plain.written ▸ tokensDrawn course.read
  have texts : placeholders f.number (writeTree final) = textKeys f.number final := by
    have filtered := @cellsFiltered f.number (cells false final) (fun _ => true) fun key mem => by
      rw [show (tagsOf (cells false final)).flatMap (placeholders f.number) = [] from bare] at mem
      cases mem
    rw [plain.rejoined, ← cellsKeys]
    simpa using filtered
  have waits : ∀ key ∈ textKeys f.number final, s₁.defers key := by
    intro key mem
    have within : key ∈ textKeys f.number (Tree.ofTokens tokens) := by
      rw [textKeys, settledShown ready course.settled] at mem
      exact treeWithin ready.keyed _ plain.shown key mem
    rcases spelt.known key (drawn.subset within) with content | live
    · obtain ⟨d, hd, same⟩ := List.mem_map.mp content
      exact List.any_eq_true.mpr ⟨d, spelt.deferred ▸ List.mem_append_right _ hd, beq_iff_eq.mpr same⟩
    · obtain ⟨l, hl, same⟩ := List.mem_map.mp live
      have none := off key (texts ▸ mem)
      rw [State.live?, Option.map_eq_none_iff, List.find?_eq_none] at none
      exact absurd (beq_iff_eq.mpr same) (none l hl)
  rw [texts]
  refine ⟨?_, fun key mem => ?_⟩
  · have kept := settledKeys ready plain.shown course.settled
    rw [List.filter_eq_self.mpr waits] at kept
    rw [kept]
    exact (givenNodup.sublist (drawn.trans layoutInOrder.pieces)).filter _
  · obtain ⟨d, hd, same⟩ := List.any_eq_true.mp (waits key mem)
    exact ⟨d, hd, beq_iff_eq.mp same⟩

/-- A successful call resolves every placeholder of its settled markup. None is left in the body if and only if
contents waited for all of them, and so they do if no text of the call is mistaken for one and none stands in a tag. The
records that the call appends hold none if and only if no bound attribute takes in deferred content. If the records hold
none, the output holds none beyond the body. -/
theorem placeholdersResolved (reached : Reached f s) (code : CodeClear f)
    (done : out (call nested template values line) f s = (.ok v, s')) :
    ∃ markup s₁ settled output body new, out (filled template values line) f s = (.ok markup, s₁) ∧
      v = .rendered output body (some f.number) ∧ Resolved nested f s₁ s' settled body ∧
      s'.records = s.records ++ new ∧
      (NonceFree nested f s₁.deferred settled →
        (Clear f.number body.toList ↔ Owned s₁.deferred (placeholders f.number settled))) ∧
      (RecordsClear f.number s'.records → NamesUnmarked f.number f.component s'.records →
        (Unmarked f.number output.toList ↔ Unmarked f.number body.toList)) ∧
      (settled = markup ∧ new = {} ∧
          (standing f.number markup.toList = keysOf (layout template values line f s).pieces →
            Owned s₁.deferred (placeholders f.number settled)) ∨
        ∃ tokens final s₂, Course template values line f s markup s₁ tokens final s₂ ∧ settled = writeTree final ∧
          (ShownClear f s₁ → OwnOnly f s₁ (Tree.ofTokens tokens) →
            (RecordsClear f.number new ↔ Sealed f s₁ (Tree.ofTokens tokens))) ∧
          (Unmistaken f s₁ (layout template values line f s).pieces markup tokens final → tagKeys f.number final = [] →
            Owned s₁.deferred (placeholders f.number settled))) := by
  obtain ⟨markup, s₁, settled, output, body, new, filling, rfl, resolved, records, result, way⟩ :=
    callResolved reached done
  refine ⟨markup, s₁, settled, output, body, new, filling, rfl, resolved, records, bodyClear resolved,
    outputUnmarked result, ?_⟩
  cases way with
  | still none => exact .inl ⟨rfl, rfl, stillOwned filling none⟩
  | @settled tokens final s₂ _ course gained =>
    exact .inr ⟨tokens, final, s₂, course, rfl, waySealed reached code filling gained,
      fun plain bare => settledOwned reached course plain bare resolved.live⟩

end Calls

section Sequences

variable {nested : Nested} {f : Factory} {s s₁ s' : State} {template : String} {values : List Value} {line : Int}

/-- No text of a call reads as a placeholder that the factory did not put there, and deferred content stands in no
bound attribute. -/
structure Tidy (nested : Nested) (f : Factory) (s : State) (template : String) (values : List Value) (line : Int) :
    Prop where
  still : ∀ markup s₁, out (filled template values line) f s = (.ok markup, s₁) → s₁.live = [] →
    Owned s₁.deferred (placeholders f.number markup) ∧ NonceFree nested f s₁.deferred markup
  settled : ∀ markup s₁ tokens final s₂, Course template values line f s markup s₁ tokens final s₂ →
    (ShownClear f s₁ ∧ OwnOnly f s₁ (Tree.ofTokens tokens) ∧ Sealed f s₁ (Tree.ofTokens tokens)) ∧
    Owned s₁.deferred (placeholders f.number (writeTree final)) ∧ NonceFree nested f s₁.deferred (writeTree final)

inductive Answered (nested : Nested) (f : Factory) : State → List Value → State → Prop where
  | none {s : State} : Answered nested f s [] s
  | call {s s₁ s' : State} {template : String} {values : List Value} {line : Int} {v : Value} {answers : List Value}
      (tidy : Tidy nested f s template values line)
      (done : out (call nested template values line) f s = (.ok v, s₁))
      (named : NamesUnmarked f.number f.component s₁.records) (rest : Answered nested f s₁ answers s') :
      Answered nested f s (v :: answers) s'

theorem clearAppend {number : Nat} {r r' : Records} (h : RecordsClear number r) (h' : RecordsClear number r') :
    RecordsClear number (r ++ r') where
  bindings := List.forall_mem_append.mpr ⟨h.bindings, h'.bindings⟩
  handlers := List.forall_mem_append.mpr ⟨h.handlers, h'.handlers⟩
  chains := List.forall_mem_append.mpr ⟨h.chains, h'.chains⟩

theorem tidyAnswer {v : Value} (reached : Reached f s) (code : CodeClear f) (clear : RecordsClear f.number s.records)
    (tidy : Tidy nested f s template values line) (done : out (call nested template values line) f s = (.ok v, s'))
    (named : NamesUnmarked f.number f.component s'.records) :
    RecordsClear f.number s'.records ∧ Unmarked f.number v.plain.toList := by
  obtain ⟨markup, s₁, settled, output, body, new, filling, rfl, resolved, records, result, way⟩ :=
    callResolved reached done
  have both : RecordsClear f.number new ∧ Clear f.number body.toList := by
    cases way with
    | still none =>
      obtain ⟨owned, free⟩ := tidy.still markup s₁ filling none
      exact ⟨⟨nofun, nofun, nofun⟩, (bodyClear resolved free).mpr owned⟩
    | settled course gained =>
      obtain ⟨⟨shown, own, apart⟩, owned, free⟩ := tidy.settled _ _ _ _ _ course
      exact ⟨(waySealed reached code filling gained shown own).mpr apart, (bodyClear resolved free).mpr owned⟩
  have all : RecordsClear f.number s'.records := records ▸ clearAppend clear both.1
  exact ⟨all, (outputUnmarked result all named).mpr (clearUnmarked both.2)⟩

/-- No placeholder comes out over any sequence of tidy calls. -/
theorem answersUnmarked {answers : List Value} (run : Answered nested f s answers s') (reached : Reached f s)
    (code : CodeClear f) (clear : RecordsClear f.number s.records) :
    RecordsClear f.number s'.records ∧ ∀ v ∈ answers, Unmarked f.number v.plain.toList := by
  -- The induction is on the run: each call starts with records that the one before left clear.
  induction run with
  | none => exact ⟨clear, fun _ none => absurd none List.not_mem_nil⟩
  | @call s s₁ s' template values line v answers tidy done named _ ih =>
    obtain ⟨records, output⟩ := tidyAnswer reached code clear tidy done named
    have next := Reached.call nested template values line reached
    rw [done] at next
    obtain ⟨all, others⟩ := ih next records
    exact ⟨all, List.forall_mem_cons.mpr ⟨output, others⟩⟩

end Sequences

section Tips

instance (number : Nat) (cs : List Char) : Decidable (Clear number cs) :=
  decidable_of_iff (placeholders number (String.ofList cs) = []) (by rw [← clearSplit, String.toList_ofList])

instance (f s tree) : Decidable (OwnOnly f s tree) := by unfold OwnOnly; infer_instance

instance (f s tree) : Decidable (Sealed f s tree) :=
  have (text : String) : Decidable (Undeferred f s text) := by unfold Undeferred; infer_instance
  decidable_of_iff ((∀ p ∈ boundTexts f s tree, ∀ name ∈ p.1, Undeferred f s p.2 ∧ Clear f.number name.toList) ∧
      ∀ e ∈ elements tree, ∀ a ∈ e.1, (eventAt s a).isSome → Clear f.number a.name.toList)
    ⟨fun h => ⟨h.1, h.2⟩, fun h => ⟨h.attributes, h.events⟩⟩

instance (f s) : Decidable (ShownClear f s) := by unfold ShownClear; infer_instance

instance (f : Factory) : Decidable (CodeClear f) := by unfold CodeClear; infer_instance

def tipTemplate : String := "<p title=\"\x7b\x7d \x7b\x7d\">\x7b\x7d</p>"

def tip : Component :=
  .mk "Tip" [("n", .whole 1)]
    (some ("def render(self, ctx):\n    ctx.html('<b onclick=\x7b\x7d></b>', lambda: setattr(self, 'n', 2))\n" ++
      "    return ctx.html('" ++ tipTemplate ++ "', self.n, ctx.mark, ctx.note)\n"))
    1 "tip.py" [] none

def tipSlots : List Slot :=
  [{ signals := ["n"], writes := ["n"], isFunction := true, isEvent := true, eventName := some "onclick",
     source := "() => this.n = 2", bodySource := some "this.n = 2", expression := "lambda: setattr(self, 'n', 2)",
     template := "<b onclick=\x7b\x7d></b>", line := 2 },
   { signals := ["n"], source := "this.n", expression := "self.n", template := tipTemplate, line := 3 },
   { source := "ctx.mark", expression := "ctx.mark", template := tipTemplate, slot := 1, line := 3 },
   { source := "ctx.note", expression := "ctx.note", template := tipTemplate, slot := 2, line := 3 }]

abbrev tipFactory : Factory := factoryOf tip tipSlots

abbrev tipState : State := startOf tip tipSlots

def tipCall (mark note : Value) : Rendering Value := call (fun _ => return "") tipTemplate [.whole 1, mark, note] 3

theorem tipStarted : Reached tipFactory tipState :=
  startedOf (slotsListed rfl
    (listedAppend (listedAppend (listedAppend (listedText rfl) rfl) rfl) rfl) rfl (by decide +kernel))

def markupOf? : Deferred → Option String
  | .markup html => some html
  | .component _ => none

def markups (store : List (String × Deferred)) : List (String × Option String) :=
  store.map fun d => (d.1, markupOf? d.2)

theorem filledMarkup {nested : Nested} {store : List (String × Deferred)} {key html before after : String}
    {texts : List String} (one : markups store = [(key, some html)])
    (filled : List.Forall₂ (Filled nested store) [.plain before, .placeholder key, .plain after] texts) :
    texts = [before, html, after] := by
  rcases filled with _ | ⟨⟨⟩, _ | ⟨content, _ | ⟨⟨⟩, ⟨⟩⟩⟩⟩
  cases content with
  | @content _ content _ waits comes =>
    have listed : (key, markupOf? content) ∈ markups store := List.mem_map_of_mem waits
    rw [one, List.mem_singleton, Prod.mk.injEq] at listed
    cases content with
    | markup own =>
      obtain rfl : own = html := Option.some.inj listed.2
      exact congrArg (fun text => [before, text, after]) comes
    | component c => cases listed.2

def isTidy (template : String) (values : List Value) (line : Int) (f : Factory) (s : State)
    (contents : List (String × Option String)) (pieces : List Piece) : Bool :=
  (course? template values line f s).any fun (markup, s₁, tokens, final) =>
    decide (Unmistaken f s₁ (layout template values line f s).pieces markup tokens final) &&
      decide (tagKeys f.number final = [] ∧ ShownClear f s₁ ∧ OwnOnly f s₁ (Tree.ofTokens tokens) ∧
        Sealed f s₁ (Tree.ofTokens tokens)) &&
      (markups s₁.deferred == contents && Piece.split f.number (writeTree final) == pieces)

theorem textSealed : ∃ v s' output body, out (tipCall (.text "*") (.markup "<i>")) tipFactory tipState = (.ok v, s') ∧
    v = .rendered output body (some tipFactory.number) ∧ body = "<p data-zid=\"_0\" title=\"1 *\"><i></p>" ∧
    s'.records.bindings.length = 1 ∧ RecordsClear tipFactory.number s'.records ∧
    Clear tipFactory.number body.toList ∧ Unmarked tipFactory.number output.toList := by
  obtain ⟨ok, tidy⟩ : (out (tipCall (.text "*") (.markup "<i>")) tipFactory tipState).1.isOk = true ∧
      isTidy tipTemplate [.whole 1, .text "*", .markup "<i>"] 3 tipFactory tipState
        [("__zinc_00000000_1__", some "<i>")]
        [.plain "<p data-zid=\"_0\" title=\"1 *\">", .placeholder "__zinc_00000000_1__", .plain "</p>"] = true := by
    decide +kernel
  obtain ⟨bound, handlers, chains⟩ :
      (out (tipCall (.text "*") (.markup "<i>")) tipFactory tipState).2.records.bindings =
        [{ id := "_0", signals := ["n"], source := "\"\" + (this.n) + \" *\"", attribute? := some "title" }] ∧
      (out (tipCall (.text "*") (.markup "<i>")) tipFactory tipState).2.records.handlers = [] ∧
      (out (tipCall (.text "*") (.markup "<i>")) tipFactory tipState).2.records.asyncBindings = [] := by decide +kernel
  obtain ⟨v, called⟩ := okValue ok
  obtain ⟨s', ended⟩ : ∃ s', (out (tipCall (.text "*") (.markup "<i>")) tipFactory tipState).2 = s' := ⟨_, rfl⟩
  rw [ended] at bound handlers chains
  have done : out (tipCall (.text "*") (.markup "<i>")) tipFactory tipState = (.ok v, s') := Prod.ext called ended
  obtain ⟨markup, s₁, settled, output, body, new, filling, is, resolved, records, cleared, unmarked, way⟩ :=
    placeholdersResolved tipStarted (by decide +kernel) done
  have none : tipState.records ++ new = new := Records.noneAppend
  rw [none] at records
  have named : NamesUnmarked tipFactory.number tipFactory.component s'.records := by
    have mentions : s'.records.mentions = ["n"] := by simp [Records.mentions, bound, handlers, chains]
    have ids : s'.records.ids = ["_0"] := by simp [Records.ids, bound, handlers, chains]
    have literal : fieldLiteral tip "n" = .ok "1" := by decide +kernel
    refine ⟨?_, ?_, by simp [handlers]⟩
    · rw [mentions, List.forall_mem_singleton]
      refine ⟨unmarkedFixed (by decide), fun text made => ?_⟩
      obtain rfl := Except.ok.inj (literal.symm.trans made)
      exact unmarkedFixed (by decide)
    · rw [ids, List.forall_mem_singleton]
      exact unmarkedFixed (by decide)
  rcases way with ⟨_, rfl, _⟩ | ⟨tokens, final, s₂, course, rfl, sealing, owning⟩
  · rw [records] at bound
    cases bound
  rw [isTidy, courseTaken course] at tidy
  simp only [Option.any_some, Bool.and_eq_true, decide_eq_true_eq, beq_iff_eq] at tidy
  obtain ⟨⟨plain, bare, shown, own, apart⟩, contents, pieces⟩ := tidy
  have recordsClear : RecordsClear tipFactory.number s'.records := records ▸ (sealing shown own).mpr apart
  have fills (texts : List String) (filled : List.Forall₂ (Filled (fun _ => return "") s₁.deferred)
      (Piece.split tipFactory.number (writeTree final)) texts) :
      texts = ["<p data-zid=\"_0\" title=\"1 *\">", "<i>", "</p>"] := filledMarkup contents (pieces ▸ filled)
  have owned := owning plain bare
  have free : NonceFree (fun _ => return "") tipFactory s₁.deferred (writeTree final) := by
    intro texts filled
    rw [fills texts filled]
    decide +kernel
  have clear := (cleared free).mpr owned
  obtain ⟨texts, rfl, became⟩ := resolved.body
  rw [fills texts (ownedFilled became owned)] at clear is unmarked
  exact ⟨v, s', output, _, done, is, by decide, by rw [bound]; rfl, recordsClear, clear,
    (unmarked recordsClear named).mpr (clearUnmarked clear)⟩

/-- With markup in the attribute, the placeholder of the markup comes out in the code of the binding, although
no template, value or field reads like the nonce. -/
theorem markupLeaks : ∃ v s' b, out (tipCall (.markup "*") (.text "x")) tipFactory tipState = (.ok v, s') ∧
    s'.records.bindings = [b] ∧ placeholders tipFactory.number b.source = ["__zinc_00000000_1__"] ∧
    ∀ text ∈ [tipTemplate, "*", "x", Value.plain (.whole 1)] ++ tip.source?.toList ++ tip.fields.map (·.2.plain),
      ¬nonce tipFactory.number <:+: text.toList := by
  obtain ⟨ok, bound⟩ : (out (tipCall (.markup "*") (.text "x")) tipFactory tipState).1.isOk = true ∧
      (out (tipCall (.markup "*") (.text "x")) tipFactory tipState).2.records.bindings =
        [{ id := "_0", signals := ["n"], source := "\"\" + (this.n) + \" \" + \"__zinc_00000000_1__\"",
           attribute? := some "title" }] := by decide +kernel
  obtain ⟨v, called⟩ := okValue ok
  obtain ⟨s', ended⟩ : ∃ s', (out (tipCall (.markup "*") (.text "x")) tipFactory tipState).2 = s' := ⟨_, rfl⟩
  rw [ended] at bound
  exact ⟨v, s', _, Prod.ext called ended, bound, by decide +kernel, by decide +kernel⟩

end Tips

end LiveMarkup.Render
