import LiveMarkup.Proofs.Render.Copies
import LiveMarkup.Proofs.Render.Layout
import LiveMarkup.Proofs.Value.Held
/-! What the calls of a render have given, those of the components inside others among them. All markup that is put off
or passed on in between is laid out of what the calls before have given. -/
namespace LiveMarkup.Render
open Client Markup

inductive Event where
  | call (f : Factory) (s : State) (template : String) (values : List Value) (line : Int)
      (result : Except RenderError Value) (after : State)
  | returned (v : Value)

def eventLog (nested : Nested) (inner : NestedLog Event) : CallLog Event := fun template values line f s =>
  let ended := out (call nested template values line) f s
  callLog nested inner (fun _ inside => inside) template values line f s ++
    [.call f s template values line ended.1 ended.2]

section Define

variable (ours : String → Prop)

/-- Complete markup in which no element has one of our identifiers. -/
def Foreign (text : String) : Prop := ∃ ids, Closed text.toList ids ∧ ∀ id ∈ ids, ¬ours id

/-- The call succeeds with markup that is complete around its contents and gives identifiers to elements without any,
and the script behind it ends where it says. What a method returns is markup, or reads as complete markup. -/
inductive Proper : Event → Prop where
  | call {f s template values line v s' markup s₁ ids} (writes : Writes ours f s template values line markup s₁ ids)
      (unbroken : ∀ code, script f.component s'.records = .ok code → Unbroken code) :
      Proper (.call f s template values line (.ok v) s')
  | returned {v} (plain : v.isSafe = false → Foreign ours v.plain) : Proper (.returned v)

/-- What the calls among the events gave, in the order in which they ended. -/
inductive Yields : List Event → List Answer → Prop where
  | start : Yields [] []
  | returned {events answers v} (before : Yields events answers) : Yields (events ++ [.returned v]) answers
  | call {events answers f s template values line markup s₁ ids texts origins code s'} (before : Yields events answers)
      (reached : Reached f s) (writes : Writes ours f s template values line markup s₁ ids)
      (contents : Contents ours answers (Piece.split f.number markup) texts origins)
      (coded : Coded f.component s'.records code)
      (recorded : ∀ id ∈ s'.records.ids, id ∈ answers.flatMap (·.ids) ∨ id ∈ ids) :
      Yields (events ++ [.call f s template values line
          (.ok (.rendered (String.join texts ++ code) (String.join texts) (some f.number))) s'])
        (answers ++ [⟨String.join texts, code, s'.records.ids, ids, answers.length :: origins⟩])

def Whole (answers : List Answer) (text : String) : Prop := ∃ origins, Laid ours answers text.toList origins

def Supplied (answers : List Answer) (ps : List Finished) : Prop := Holds (Whole ours answers) ps

end Define

def Deferred.held : Deferred → List Finished
  | .markup s => [⟨s, s⟩]
  | .component c => c.held

section Growing

variable {ours : String → Prop} {answers answers' : List Answer} {text text' : List Char} {s t : String}
  {origins origins' : List Nat} {ps : List Finished} {pieces pieces' : List Piece} {texts texts' : List String}

theorem laidMore (grows : answers <+: answers') (laid : Laid ours answers text origins) :
    Laid ours answers' text origins := by
  induction laid with
  | copy known => exact .copy (grows.subset known)
  | code known => exact .code (grows.subset known)
  | other complete apart => exact .other complete apart
  | append _ _ ih ih' => exact .append ih ih'

theorem contentsMore (grows : answers <+: answers') (contents : Contents ours answers pieces texts origins) :
    Contents ours answers' pieces texts origins := by
  induction contents with
  | none => exact .none
  | plain _ ih => exact .plain ih
  | content own _ ih => exact .content (laidMore grows own) ih

theorem contentsAppend (first : Contents ours answers pieces texts origins)
    (second : Contents ours answers pieces' texts' origins') :
    Contents ours answers (pieces ++ pieces') (texts ++ texts') (origins ++ origins') := by
  induction first with
  | none => exact second
  | plain _ ih => exact .plain ih
  | content own _ ih =>
    rw [List.append_assoc]
    exact .content own ih

theorem foreignWhole (foreign : Foreign ours s) : Whole ours answers s := by
  obtain ⟨ids, complete, apart⟩ := foreign
  exact ⟨[], .other complete apart⟩

theorem plainWhole (closed : Closed s.toList []) : Whole ours answers s :=
  foreignWhole ⟨[], closed, fun _ none => absurd none List.not_mem_nil⟩

theorem wholeMore (grows : answers <+: answers') (whole : Whole ours answers s) : Whole ours answers' s := by
  obtain ⟨origins, laid⟩ := whole
  exact ⟨origins, laidMore grows laid⟩

theorem wholeAppend (hs : Whole ours answers s) (ht : Whole ours answers t) : Whole ours answers (s ++ t) := by
  obtain ⟨origins, laid⟩ := hs
  obtain ⟨origins', laid'⟩ := ht
  exact ⟨origins ++ origins', String.toList_append ▸ .append laid laid'⟩

theorem suppliedMore (grows : answers <+: answers') (known : Supplied ours answers ps) : Supplied ours answers' ps :=
  holdsMore (fun _ => wholeMore grows) known

theorem keyWhole {number : Nat} {key : String} (front : Front number key.toList) : Whole ours answers key := by
  refine plainWhole (closedText fun c mem => ?_)
  have angle : c ≠ '<' := fun is => dividesFront (by decide) front (is ▸ mem)
  have sign : c ≠ '&' := fun is => dividesFront (by decide) front (is ▸ mem)
  simp [Reader.isOrdinary, angle, sign]

mutual

theorem shardHolds {P : String → Prop} {number : Nat} {d : Deferred} :
    (v : Value) → Holds P v.held → .content d ∈ shards number v → Holds P d.held
  | .list items, h, mem | .tuple items, h, mem | .generator items, h, mem => shardsHold items h mem
  | .component c, h, mem => by
    cases List.mem_singleton.mp mem
    exact h
  | .rendered output body owner, h, mem => by
    cases List.mem_singleton.mp mem
    obtain ⟨whole, front⟩ := h _ List.mem_cons_self
    refine holdsOne ?_
    split
    · exact front
    · exact whole
  | .markup s, h, mem | .safe s, h, mem => by
    cases List.mem_singleton.mp mem
    exact h
  | .none, _, mem | .truth _, _, mem | .whole _, _, mem | .real _, _, mem | .text _, _, mem | .bytes _, _, mem
  | .set _, _, mem | .dict _, _, mem | .object _, _, mem | .promise .., _, mem => nomatch List.mem_singleton.mp mem

theorem shardsHold {P : String → Prop} {number : Nat} {d : Deferred} :
    (vs : List Value) → Holds P (Value.heldAll vs) → .content d ∈ shardsAll number vs → Holds P d.held
  | [], _, mem => absurd mem List.not_mem_nil
  | v :: rest, h, mem => by
    obtain ⟨own, others⟩ := holdsAppend.mp h
    rcases List.mem_append.mp mem with mem | mem
    · exact shardHolds v own mem
    · exact shardsHold rest others mem

end

theorem contentMember {number next : Nat} {ds : List Shard} {d : String × Deferred}
    (mem : d ∈ Shard.contents number next ds) : .content d.2 ∈ ds := by
  induction ds generalizing next with
  | nil => cases mem
  | cons first rest ih =>
    cases first with
    | text s => exact List.mem_cons_of_mem _ (ih mem)
    | content own =>
      rcases List.mem_cons.mp mem with rfl | mem
      · exact List.mem_cons_self
      · exact List.mem_cons_of_mem _ (ih mem)

variable {f : Factory} {before : State} {P : String → Prop} {l : Layout} {v : Value}

theorem plainHolds {following : String} (held : Holds P v.held) (h : ∀ d ∈ l.contents, Holds P d.2.held) :
    ∀ d ∈ (l.plain f.number v following).contents, Holds P d.2.held := by
  unfold Layout.plain
  split
  · refine List.forall_mem_append.mpr ⟨h, fun d mem => ?_⟩
    exact shardHolds v held (contentMember mem)
  split
  · split
    · exact h
    · split
      · exact h
      · exact h
  · exact h

theorem fillHolds {values : List Value} {slots : List (Option Analysis.Slot)} {texts : List String}
    (held : Holds P (Value.heldAll values)) (h : ∀ d ∈ l.contents, Holds P d.2.held) :
    ∀ d ∈ (Layout.fill f before l values slots texts).contents, Holds P d.2.held := by
  induction values generalizing l slots texts with
  | nil =>
    unfold Layout.fill
    exact h
  | cons v values ih =>
    obtain ⟨own, others⟩ := holdsAppend.mp held
    rcases slots with _ | ⟨slot?, slots⟩
    · exact h
    rcases texts with _ | ⟨following, texts⟩
    · exact h
    refine ih others ?_
    unfold Layout.slot
    split
    · split
      · exact h
      · exact plainHolds own h
    · exact plainHolds own h

theorem layoutHolds {template : String} {values : List Value} {line : Int} (held : Holds P (Value.heldAll values)) :
    ∀ d ∈ (layout template values line f before).contents, Holds P d.2.held := by
  unfold layout
  split
  · exact fun _ none => absurd none List.not_mem_nil
  · exact fillHolds held fun _ none => absurd none List.not_mem_nil

end Growing

section Steps

variable {α β : Type}

structure Dealt (new : List Answer) (n m : Nat) : Prop where
  later : n ≤ m
  distinct : (new.flatMap (·.ids)).Nodup
  numbered : ∀ id ∈ new.flatMap (·.ids), ∃ i, n ≤ i ∧ i < m ∧ id = idText i

structure Stocked (ours : String → Prop) (f : Factory) (s : State) (answers : List Answer) : Prop where
  reached : Reached f s
  recorded : ∀ id ∈ s.records.ids, id ∈ answers.flatMap (·.ids)
  waiting : ∀ d ∈ s.deferred, Supplied ours answers d.2.held
  own : Supplied ours answers f.component.held

/-- From answers that have grown out of `base` and supply the state, the step leaves answers that do, if all that
happens in it is proper. They supply its result. -/
def Lays (ours : String → Prop) (base : List Answer) (held : α → List Finished) (f : Factory) (m : Rendering α)
    (l : Log Event) : Prop :=
  ∀ events answers s, base <+: answers → Yields ours events answers → Stocked ours f s answers →
    (∀ e ∈ l f s, Proper ours e) →
    ∃ new, Yields ours (events ++ l f s) (answers ++ new) ∧ Dealt new s.page.nextId (out m f s).2.page.nextId ∧
      Stocked ours f (out m f s).2 (answers ++ new) ∧
      ∀ a, (out m f s).1 = .ok a → Supplied ours (answers ++ new) (held a)

variable {ours : String → Prop} {base : List Answer} {held : α → List Finished} {held' : β → List Finished} {f : Factory}
  {m : Rendering α} {k : α → Rendering β} {l : Log Event} {next : α → Log Event} {new new' : List Answer}
  {a b c : Nat}

theorem dealtNone : Dealt [] a a := ⟨Nat.le_refl a, List.nodup_nil, fun _ none => absurd none List.not_mem_nil⟩

theorem dealtApart (first : Dealt new a b) (second : Dealt new' b c) :
    ∀ id ∈ new.flatMap (·.ids), ∀ id' ∈ new'.flatMap (·.ids), id ≠ id' := by
  rintro _ old _ late rfl
  obtain ⟨i, _, below, rfl⟩ := first.numbered _ old
  obtain ⟨j, above, _, same⟩ := second.numbered _ late
  exact Nat.not_lt.mpr above (idInjective same ▸ below)

theorem dealtWithin {low high : Nat} (dealt : Dealt new a b) (hl : low ≤ a) (hh : b ≤ high) :
    ∀ id ∈ new.flatMap (·.ids), ∃ i, low ≤ i ∧ i < high ∧ id = idText i := by
  intro id mem
  obtain ⟨i, above, below, same⟩ := dealt.numbered id mem
  exact ⟨i, Nat.le_trans hl above, Nat.lt_of_lt_of_le below hh, same⟩

theorem dealtAppend (first : Dealt new a b) (second : Dealt new' b c) : Dealt (new ++ new') a c := by
  refine ⟨Nat.le_trans first.later second.later, ?_, ?_⟩
  · rw [List.flatMap_append]
    exact List.nodup_append.mpr ⟨first.distinct, second.distinct, dealtApart first second⟩
  · rw [List.flatMap_append]
    exact List.forall_mem_append.mpr ⟨dealtWithin first (Nat.le_refl a) second.later,
      dealtWithin second first.later (Nat.le_refl c)⟩

theorem dealtBehind {own : Answer} (first : Dealt [own] a b) (second : Dealt new b c) : Dealt (new ++ [own]) a c := by
  have both := dealtAppend first second
  have mixed : (new ++ [own]).flatMap (·.ids) = new.flatMap (·.ids) ++ [own].flatMap (·.ids) := List.flatMap_append
  have perm := @List.perm_append_comm _ ([own].flatMap (·.ids)) (new.flatMap (·.ids))
  refine ⟨both.later, ?_, ?_⟩
  · rw [mixed]
    exact perm.nodup_iff.mp (List.flatMap_append ▸ both.distinct)
  · intro id mem
    refine both.numbered id ?_
    rw [mixed] at mem
    rw [List.flatMap_append]
    exact perm.mem_iff.mpr mem

theorem suppliedNew {answers : List Answer} {ps : List Finished} (h : Supplied ours answers ps) :
    Supplied ours (answers ++ new) ps := suppliedMore (List.prefix_append _ _) h

theorem laysIdle (idle : Idle f m) (result : ∀ answers s a, base <+: answers → Stocked ours f s answers →
    (out m f s).1 = .ok a → Supplied ours answers (held a)) : Lays ours base held f m noLog := by
  intro events answers s grows answered stocked _
  rw [idle s]
  refine ⟨[], ?_, dealtNone, ?_, fun a is => ?_⟩
  · simpa [noLog] using answered
  · rwa [List.append_nil]
  · rw [List.append_nil]
    exact result answers s a grows stocked is

theorem laysThen (first : Lays ours base held f m l) (rest : ∀ a answers, base <+: answers → Supplied ours answers (held a) →
    Lays ours answers held' f (k a) (next a)) : Lays ours base held' f (m >>= k) (andThen l m next) := by
  intro events answers s grows answered stocked proper
  have before : ∀ e ∈ l f s, Proper ours e := fun e mem => proper e (List.mem_append_left _ mem)
  obtain ⟨new, answered₁, dealt, stocked₁, supplied⟩ := first events answers s grows answered stocked before
  rw [andThen, after] at proper ⊢
  rw [outBind]
  rcases ran : out m f s with ⟨e | a, s₁⟩
  · rw [ran] at dealt stocked₁
    simp only [List.append_nil]
    exact ⟨new, answered₁, dealt, stocked₁, fun _ is => by cases is⟩
  · rw [ran] at dealt stocked₁ supplied
    simp only [ran] at proper
    obtain ⟨new', answered₂, dealt', stocked₂, supplied'⟩ := rest a (answers ++ new) (grows.trans (List.prefix_append _ _))
      (supplied a rfl) (events ++ l f s) (answers ++ new) s₁ List.prefix_rfl answered₁ stocked₁
      (List.forall_mem_append.mp proper).2
    rw [List.append_assoc] at answered₂ stocked₂ supplied'
    rw [List.append_assoc] at answered₂
    exact ⟨new ++ new', answered₂, dealtAppend dealt dealt', stocked₂, supplied'⟩

theorem laysLast (first : Lays ours base held f m l) (idle : ∀ a, Idle f (k a))
    (result : ∀ answers s a b, base <+: answers → Supplied ours answers (held a) → (out (k a) f s).1 = .ok b →
      Supplied ours answers (held' b)) : Lays ours base held' f (m >>= k) l := by
  have whole : andThen l m (fun _ => noLog) = l := by
    funext f s
    rw [andThen, after]
    rcases out m f s with ⟨_ | _, _⟩
    · exact List.append_nil _
    · exact List.append_nil _
  refine whole ▸ laysThen first fun a answers grows supplied => laysIdle (idle a) fun answers' s b grows' _ is => ?_
  exact result answers' s a b (grows.trans grows') (suppliedMore grows' supplied) is

theorem laysAfter (idle : Idle f m) (rest : ∀ a s, (out m f s).1 = .ok a → Lays ours base held' f (k a) (next a)) :
    Lays ours base held' f (m >>= k) (after m next) := by
  intro events answers s grows answered stocked proper
  have same := idle s
  rw [after] at proper ⊢
  rw [outBind]
  rcases ran : out m f s with ⟨e | a, s₁⟩
  · obtain rfl : s₁ = s := by rw [ran] at same; exact same
    refine ⟨[], ?_, dealtNone, ?_, fun _ is => by cases is⟩
    · rwa [List.append_nil, List.append_nil]
    · rwa [List.append_nil]
  · obtain rfl : s₁ = s := by rw [ran] at same; exact same
    simp only [ran] at proper
    exact rest a s₁ (by rw [ran]) events answers s₁ grows answered stocked proper

end Steps

section Calls

variable {ours : String → Prop} {f : Factory} {s s₁ s' : State} {nested : Nested} {inner : NestedLog Event}
  {events : List Event} {answers : List Answer} {template : String} {values : List Value} {line : Int}
  {markup : String} {ids : List String} {v : Value}

def InnerLays (ours : String → Prop) (nested : Nested) (inner : NestedLog Event) : Prop :=
  ∀ events answers c page, Yields ours events answers → Supplied ours answers c.held →
    (∀ e ∈ inner c page, Proper ours e) →
    ∃ new, Yields ours (events ++ inner c page) (answers ++ new) ∧ Dealt new page.nextId ((nested c).run page).2.nextId ∧
      ∀ output, ((nested c).run page).1 = .ok output → Whole ours (answers ++ new) output

theorem nestedLays {c : Component} {output : String} (inside : InnerLays ours nested inner)
    (answered : Yields ours events answers) (held : Supplied ours answers c.held)
    (proper : ∀ e ∈ inner c s.page, Proper ours e) (done : out (renderNested nested c) f s = (.ok output, s')) :
    ∃ new, Yields ours (events ++ inner c s.page) (answers ++ new) ∧ Dealt new s.page.nextId s'.page.nextId ∧
      Whole ours (answers ++ new) output := by
  obtain ⟨new, answered', dealt, whole⟩ := inside events answers c s.page answered held proper
  have ran : (nested c).run s.page = (.ok output, s'.page) := (nestedShown done).1
  rw [ran] at dealt whole
  exact ⟨new, answered', dealt, whole output rfl⟩

theorem pieceLays {p : Piece} {text : String} (inside : InnerLays ours nested inner)
    (fronts : ∀ key ∈ p.key?, Front f.number key.toList) (answered : Yields ours events answers)
    (waiting : ∀ d ∈ s.deferred, Supplied ours answers d.2.held) (proper : ∀ e ∈ pieceLog inner p f s, Proper ours e)
    (done : out (spliced nested p) f s = (.ok text, s')) :
    ∃ new origins, Yields ours (events ++ pieceLog inner p f s) (answers ++ new) ∧
      Dealt new s.page.nextId s'.page.nextId ∧ Contents ours (answers ++ new) [p] [text] origins ∧
      ∀ d ∈ s'.deferred, d ∈ s.deferred := by
  cases p with
  | plain own =>
    cases done
    refine ⟨[], [], ?_, dealtNone, .plain .none, fun _ mem => mem⟩
    simpa [pieceLog, noLog] using answered
  | placeholder key =>
    have content {new : List Answer} (whole : Whole ours (answers ++ new) text) :
        ∃ origins, Contents ours (answers ++ new) [.placeholder key] [text] origins := by
      obtain ⟨origins, laid⟩ := whole
      exact ⟨origins ++ [], .content laid .none⟩
    rw [spliced, outBind] at done
    rw [pieceLog] at proper ⊢
    cases found : s.deferred.find? (·.1 == key) with
    | none =>
      rw [takeNone found] at done
      have own : Whole ours (answers ++ []) key := keyWhole (fronts key rfl)
      cases done
      obtain ⟨origins, contents⟩ := content own
      refine ⟨[], origins, ?_, dealtNone, contents, fun _ mem => mem⟩
      simpa only [found, List.append_nil] using answered
    | some d =>
      obtain ⟨_, d⟩ := d
      have held := waiting _ (List.mem_of_find?_eq_some found)
      rw [takeSome found] at done
      simp only [found] at done proper ⊢
      cases d with
      | markup html =>
        have own : Whole ours (answers ++ []) html := (suppliedNew held _ List.mem_cons_self).1
        cases done
        obtain ⟨origins, contents⟩ := content own
        refine ⟨[], origins, ?_, dealtNone, contents, fun _ mem => (List.mem_filter.mp mem).1⟩
        rwa [List.append_nil, List.append_nil]
      | component c =>
        obtain ⟨new, answered', dealt, whole⟩ :=
          nestedLays (s := { s with deferred := s.deferred.filter (·.1 != key) }) inside answered held proper done
        obtain ⟨origins, contents⟩ := content whole
        have store := congrArg State.deferred (nestedShown done).2
        refine ⟨new, origins, answered', dealt, contents, fun d mem => ?_⟩
        rw [store] at mem
        exact (List.mem_filter.mp mem).1

theorem piecesLay {ps : List Piece} {texts : List String} (inside : InnerLays ours nested inner)
    (fronts : ∀ key ∈ keysOf ps, Front f.number key.toList) (answered : Yields ours events answers)
    (waiting : ∀ d ∈ s.deferred, Supplied ours answers d.2.held) (proper : ∀ e ∈ piecesLog nested inner ps f s, Proper ours e)
    (done : out (ps.mapM (spliced nested)) f s = (.ok texts, s')) :
    ∃ new origins, Yields ours (events ++ piecesLog nested inner ps f s) (answers ++ new) ∧
      Dealt new s.page.nextId s'.page.nextId ∧ Contents ours (answers ++ new) ps texts origins ∧
      ∀ d ∈ s'.deferred, d ∈ s.deferred := by
  induction ps generalizing s events answers texts with
  | nil =>
    cases done
    refine ⟨[], [], ?_, dealtNone, .none, fun _ mem => mem⟩
    simpa [piecesLog, noLog] using answered
  | cons p rest ih =>
    rw [List.mapM_cons] at done
    obtain ⟨text, s₁, first, done⟩ := outOk.mp done
    obtain ⟨others, _, behind, last⟩ := outOk.mp done
    cases last
    have own : ∀ key ∈ p.key?, Front f.number key.toList := by
      intro key mem
      refine fronts key ?_
      rw [keysOf, List.filterMap_cons, Option.mem_def.mp mem]
      exact List.mem_cons_self
    have later : ∀ key ∈ keysOf rest, Front f.number key.toList := by
      intro key mem
      refine fronts key ?_
      rw [keysOf, List.filterMap_cons]
      split
      · exact mem
      · exact List.mem_cons_of_mem _ mem
    rw [piecesLog, andThen, after, first] at proper ⊢
    obtain ⟨before, proper⟩ := List.forall_mem_append.mp proper
    obtain ⟨new, origins, answered₁, dealt, contents, store⟩ := pieceLays inside own answered waiting before first
    obtain ⟨new', origins', answered₂, dealt', contents', store'⟩ :=
      ih later answered₁ (fun d hd => suppliedNew (waiting d (store d hd))) proper behind
    rw [List.append_assoc] at answered₂ contents'
    rw [List.append_assoc] at answered₂
    refine ⟨new ++ new', origins ++ origins', answered₂, dealtAppend dealt dealt', ?_, fun d hd => store d (store' d hd)⟩
    refine contentsAppend (contentsMore ?_ contents) contents'
    rw [← List.append_assoc]
    exact List.prefix_append _ _

theorem writesLog (writes : Writes ours f s template values line markup s₁ ids)
    (done : out (call nested template values line) f s = (.ok v, s')) :
    callLog nested inner (fun _ inside => inside) template values line f s = spliceLog nested inner markup f s₁ := by
  rw [callLog, after]
  cases writes with
  | still filling none =>
    simp only [filling, none, List.isEmpty_nil, if_true]
  | settled filling settling =>
    cases callSucceeds done with
    | still filling' none =>
      cases filling.symm.trans filling'
      exact absurd none settling.pending
    | settled filling' settling' left =>
      cases filling.symm.trans filling'
      cases settling.read.symm.trans settling'.read
      cases settling.settled.symm.trans settling'.settled
      simp only [filling, settleLog, settling.read, settling.settled, left, List.isEmpty_nil, if_true,
        List.isEmpty_eq_false_iff.mpr settling.pending, Bool.false_eq_true, if_false]

theorem writesWaiting (reached : Reached f s) (writes : Writes ours f s template values line markup s₁ ids)
    (waiting : ∀ d ∈ s.deferred, Supplied ours answers d.2.held) (held : Supplied ours answers (Value.heldAll values)) :
    ∀ d ∈ s₁.deferred, Supplied ours answers d.2.held := by
  have put {markup : String} {s₁ : State} (filling : out (filled template values line) f s = (.ok markup, s₁)) :
      ∀ d ∈ s₁.deferred, Supplied ours answers d.2.held := by
    rw [(filledSpelt filling).deferred]
    exact List.forall_mem_append.mpr ⟨waiting, layoutHolds held⟩
  cases writes with
  | still filling => exact put filling
  | settled filling settling =>
    obtain ⟨ready, _⟩ := readyFilled reached filling
    obtain ⟨_, change⟩ := treePlaced ready settling.settled
    have store := congrArg State.deferred change.same
    exact fun d hd => put filling d (store ▸ hd)

theorem scriptedCoded {r : Records} {body : String} (result : scripted f r body = .ok v)
    (unbroken : ∀ code, script f.component r = .ok code → Unbroken code) :
    ∃ code, Coded f.component r code ∧ v = .rendered (body ++ code) body (some f.number) := by
  unfold scripted at result
  split at result
  · next empty =>
    cases result
    exact ⟨"", .none empty, by rw [String.append_empty]⟩
  · split at result
    · next code made =>
      cases result
      exact ⟨code, .script made (unbroken code made), rfl⟩
    · cases result

theorem finishedParts (done : out (finished nested markup) f s = (.ok v, s')) :
    ∃ texts, out ((Piece.split f.number markup).mapM (spliced nested)) f s = (.ok texts, s') ∧
      scripted f s'.records (String.join texts) = .ok v := by
  obtain ⟨body, splicing, result⟩ := finishedScripted done
  obtain ⟨texts, taken, rfl⟩ := spliceParts splicing
  exact ⟨texts, taken, result⟩

theorem callLays (inside : InnerLays ours nested inner) (answered : Yields ours events answers)
    (stocked : Stocked ours f s answers) (held : Supplied ours answers (Value.heldAll values))
    (proper : ∀ e ∈ eventLog nested inner template values line f s, Proper ours e) :
    ∃ new, Yields ours (events ++ eventLog nested inner template values line f s) (answers ++ new) ∧
      Dealt new s.page.nextId (out (call nested template values line) f s).2.page.nextId ∧
      Stocked ours f (out (call nested template values line) f s).2 (answers ++ new) ∧
      ∀ v, (out (call nested template values line) f s).1 = .ok v → Supplied ours (answers ++ new) v.held := by
  rw [eventLog] at proper ⊢
  obtain ⟨before, own⟩ := List.forall_mem_append.mp proper
  have reached := Reached.call nested template values line stocked.reached
  -- The components inside answer while the contents are spliced in, so that the call's own answer comes last.
  rcases done : out (call nested template values line) f s with ⟨result, s'⟩
  rw [done] at own reached
  simp only at own reached ⊢
  cases own _ List.mem_cons_self with
  | @call _ _ _ _ _ v _ markup s₁ ids writes unbroken =>
    rw [writesLog writes done] at before ⊢
    obtain ⟨texts, splicing, result⟩ := finishedParts (writesFinish writes done)
    obtain ⟨code, coded, rfl⟩ := scriptedCoded result unbroken
    have numbers := writesNumbers stocked.reached writes
    have waiting := writesWaiting stocked.reached writes stocked.waiting held
    obtain ⟨new, origins, answered', dealt, contents, store⟩ :=
      piecesLay inside (fun _ => foundFronts) answered waiting before splicing
    have records : s'.records = s₁.records := by
      have same := @finishedSpliced f s₁ nested markup
      rw [writesFinish writes done] at same
      exact (splicedRecords same).1
    obtain ⟨mine, is⟩ : ∃ a : Answer,
        a = ⟨String.join texts, code, s'.records.ids, ids, (answers ++ new).length :: origins⟩ := ⟨_, rfl⟩
    have given : ∀ id ∈ s'.records.ids, id ∈ (answers ++ new).flatMap (·.ids) ∨ id ∈ ids := by
      rw [records, List.flatMap_append]
      exact fun id mem => (numbers.recorded id mem).imp_left fun old => List.mem_append_left _ (stocked.recorded id old)
    have all := answered'.call stocked.reached writes contents coded given
    rw [← is, List.append_assoc, List.append_assoc] at all
    have known : mine ∈ answers ++ (new ++ [mine]) :=
      List.mem_append_right _ (List.mem_append_right _ List.mem_cons_self)
    have taken : Dealt [mine] s.page.nextId s₁.page.nextId := by
      refine ⟨numbers.later, ?_, ?_⟩
      · rw [List.flatMap_singleton, is, numbers.taken]
        exact freshNodup
      · rw [List.flatMap_singleton, is, numbers.taken]
        exact fun id => freshNumbered numbers.later
    refine ⟨_, all, dealtBehind taken dealt, ⟨reached, ?_, ?_, suppliedNew stocked.own⟩, fun v result => ?_⟩
    · intro id mem
      rw [← List.append_assoc, List.flatMap_append, List.mem_append, List.flatMap_singleton, is]
      exact given id mem
    · exact fun d hd => suppliedNew (waiting d (store d hd))
    · cases result
      have joined : mine.body = String.join texts := by rw [is]
      have scripted : mine.code = code := by rw [is]
      have body : Laid ours (answers ++ (new ++ [mine])) (String.join texts).toList mine.origins :=
        joined ▸ Laid.copy known
      have behind : Laid ours (answers ++ (new ++ [mine])) code.toList [] := scripted ▸ Laid.code known
      refine List.forall_mem_singleton.mpr ⟨⟨mine.origins ++ [], ?_⟩, ⟨_, body⟩⟩
      rw [String.toList_append]
      exact .append body behind

theorem tracedLays {base : List Answer} (inside : InnerLays ours nested inner)
    (held : Supplied ours base (Value.heldAll values)) :
    Lays ours base Value.held f (tracedCall nested template values line) (eventLog nested inner template values line) := by
  intro events answers s grows answered stocked proper
  obtain ⟨trace, same⟩ := @outTraced f s nested template values line
  obtain ⟨new, answered', dealt, stocked', supplied⟩ := callLays inside answered stocked (suppliedMore grows held) proper
  rw [same]
  exact ⟨new, answered', dealt, ⟨.elsewhere _ trace stocked'.reached, stocked'.recorded, stocked'.waiting, stocked'.own⟩, supplied⟩

end Calls

end LiveMarkup.Render
