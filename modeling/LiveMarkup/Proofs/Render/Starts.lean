import LiveMarkup.Proofs.Markup.Cells
import LiveMarkup.Proofs.Render.Written
/-! The start tags of a tree, as they are read and as they are written. -/
namespace LiveMarkup.Render
open Client Markup

variable {number : Nat}

mutual

def startsIn : Node → List (String × List Attribute)
  | .text _ _ => []
  | .element name attributes children => (name, attributes) :: starts children

def starts : List Node → List (String × List Attribute)
  | [] => []
  | n :: rest => startsIn n ++ starts rest

end

def startKeys (number : Nat) (start : String × List Attribute) : List String :=
  placeholders number start.1 ++
    start.2.flatMap fun a => placeholders number a.name ++ placeholders number (shownText a)

section Scanning

theorem quotingKeys {a : Attribute} :
    placeholders number (String.ofList (quoting a).inner) = placeholders number (shownText a) := by
  unfold quoting
  simp only
  split
  · split
    · rw [List.flatMap_assoc]
      exact codedKeys bothWritten
    · exact codedKeys charWritten
  · exact codedKeys charWritten

theorem quotingQuote {a : Attribute} : (quoting a).quote = '"' ∨ (quoting a).quote = '\'' := by
  unfold quoting
  simp only
  split
  · split
    · exact .inl rfl
    · exact .inr rfl
  · exact .inl rfl

theorem attributesKeys {attributes : List Attribute} {front behind : List Char} {c : Char} (divides : Divides c)
    (plain : '_' ∉ behind) : placeholders number (String.ofList (front ++
      ((attributes.map quoting).flatMap (·.chars) ++ c :: behind))) = placeholders number (String.ofList front) ++
        attributes.flatMap fun a => placeholders number a.name ++ placeholders number (shownText a) := by
  induction attributes generalizing front with
  | nil => rw [List.map_nil, List.flatMap_nil, List.nil_append, scanDivided divides, scanPlain plain, List.flatMap_nil]
  | cons a rest ih =>
    have quote : Divides (quoting a).quote := by
      rcases @quotingQuote a with same | same <;> rw [same] <;> decide
    have own : placeholders number (String.ofList (quoting a).name) = placeholders number a.name := by
      rw [quotingName, String.ofList_toList]
    have inside {more : List Char} :
        placeholders number (String.ofList ((quoting a).quote :: ((quoting a).inner ++ (quoting a).quote :: more))) =
          placeholders number (shownText a) ++ placeholders number (String.ofList more) := by
      have opening := @scanDivided number (quoting a).quote [] ((quoting a).inner ++ (quoting a).quote :: more) quote
      rw [List.nil_append, String.ofList_nil, scanNone, List.nil_append, scanDivided quote, quotingKeys] at opening
      exact opening
    have more := @ih []
    rw [List.nil_append, String.ofList_nil, scanNone, List.nil_append] at more
    rw [List.map_cons, List.flatMap_cons, Quoting.chars, Quoting.body]
    simp only [List.cons_append, List.append_assoc, List.nil_append, List.flatMap_cons]
    rw [scanDivided (by decide), scanDivided (by decide), own, inside, more]

theorem startWritten {name : String} {attributes : List Attribute} {c : Char} {behind : List Char} (divides : Divides c)
    (plain : '_' ∉ behind) {key : String}
    (mem : key ∈ placeholders number (startText name attributes ++ String.ofList (c :: behind))) :
    key ∈ startKeys number (name, attributes) := by
  have chars : startText name attributes ++ String.ofList (c :: behind) = String.ofList ('<' :: (name.toList ++
      (((Attribute.sortByName attributes).map quoting).flatMap (·.chars) ++ c :: behind))) := by
    rw [← String.toList_inj, String.toList_append, startChars, String.toList_ofList, String.toList_ofList, List.cons_append,
      List.append_assoc]
  have opening := @scanDivided number '<' [] (name.toList ++
    (((Attribute.sortByName attributes).map quoting).flatMap (·.chars) ++ c :: behind)) (by decide)
  rw [List.nil_append, String.ofList_nil, scanNone, List.nil_append, attributesKeys divides plain, String.ofList_toList] at opening
  rw [chars, opening] at mem
  refine List.mem_append.mpr ((List.mem_append.mp mem).imp_right fun inside => ?_)
  exact (sortPerm.flatMap_right _).mem_iff.mp inside

theorem endWritten {name key : String} (mem : key ∈ placeholders number ("</" ++ name ++ ">")) :
    key ∈ placeholders number name := by
  have chars : "</" ++ name ++ ">" = String.ofList (['<'] ++ '/' :: (name.toList ++ '>' :: [])) := by
    rw [← String.toList_inj]
    simp
  rw [chars, scanDivided (by decide), scanDivided (by decide), String.ofList_toList, scanPlain (by decide), List.nil_append,
    String.ofList_nil, scanNone, List.append_nil] at mem
  exact mem

end Scanning

section Cells

theorem startsAppend {a b : List Node} : starts (a ++ b) = starts a ++ starts b := by
  induction a with
  | nil => rfl
  | cons n rest ih => rw [List.cons_append, starts, starts, ih, List.append_assoc]

theorem startsOne {n : Node} : starts [n] = startsIn n := List.append_nil _

mutual

theorem cellsInStarts {raw : Bool} {key : String} : (n : Node) →
    key ∈ (tagsOf (cellsIn raw n)).flatMap (placeholders number) → ∃ t ∈ startsIn n, key ∈ startKeys number t
  | .text (.aside kind) s, mem => by
    cases kind <;> cases mem
  | .text .plain s, mem | .text .hidden s, mem => by cases mem
  | .element name attributes children, mem => by
    have inner {raw : Bool} := @cellsStarts raw key children
    have start : "<" ++ name ++ String.join ((Attribute.sortByName attributes).map (·.write)) = startText name attributes := rfl
    rw [cellsIn] at mem
    simp only [start] at mem
    split at mem
    · have own := (List.flatMap_singleton (placeholders number) (startText name attributes ++ "/>")) ▸ mem
      exact ⟨_, List.mem_cons_self, startWritten (by decide) (by decide) own⟩
    · have split : tagsOf (.tag (startText name attributes ++ ">") ::
          (cells (Reader.rawElements.contains name) children ++ [.tag ("</" ++ name ++ ">")])) =
          (startText name attributes ++ ">") ::
            (tagsOf (cells (Reader.rawElements.contains name) children) ++ ["</" ++ name ++ ">"]) :=
        congrArg (_ :: ·) List.filterMap_append
      rw [split, List.flatMap_cons, List.flatMap_append, List.flatMap_singleton] at mem
      rcases List.mem_append.mp mem with mem | mem
      · exact ⟨_, List.mem_cons_self, startWritten (by decide) (by decide) mem⟩
      rcases List.mem_append.mp mem with mem | mem
      · obtain ⟨t, own, held⟩ := inner mem
        exact ⟨t, List.mem_cons_of_mem _ own, held⟩
      · exact ⟨_, List.mem_cons_self, List.mem_append_left _ (endWritten mem)⟩

theorem cellsStarts {raw : Bool} {key : String} : (nodes : List Node) →
    key ∈ (tagsOf (cells raw nodes)).flatMap (placeholders number) → ∃ t ∈ starts nodes, key ∈ startKeys number t
  | [], mem => by cases mem
  | n :: rest, mem => by
    have both : tagsOf (cells raw (n :: rest)) = tagsOf (cellsIn raw n) ++ tagsOf (cells raw rest) := List.filterMap_append
    rw [both, List.flatMap_append] at mem
    rcases List.mem_append.mp mem with mem | mem
    · obtain ⟨t, own, held⟩ := cellsInStarts n mem
      exact ⟨t, List.mem_append_left _ own, held⟩
    · obtain ⟨t, own, held⟩ := cellsStarts rest mem
      exact ⟨t, List.mem_append_right _ own, held⟩

end

end Cells

section Attributes

variable {attributes : List Attribute} {name value : String}

structure Formed (number : Nat) (attributes : List Attribute) : Prop where
  once : (attributes.map (·.name)).Nodup
  written : ∀ a ∈ attributes, ∀ text ∈ a.written?,
    a.name ≠ idAttribute ∧ ∀ key ∈ placeholders number text, key ∈ placeholders number a.value

theorem putNames : (Attribute.put name value attributes).map (·.name) =
    if name ∈ attributes.map (·.name) then attributes.map (·.name) else attributes.map (·.name) ++ [name] := by
  induction attributes with
  | nil => rfl
  | cons a rest ih =>
    rw [Attribute.put]
    by_cases same : a.name = name
    · simp [same]
    · rw [if_neg (by simpa using same), List.map_cons, ih, List.map_cons]
      split <;> simp_all [eq_comm]

theorem putOnce (once : (attributes.map (·.name)).Nodup) : ((Attribute.put name value attributes).map (·.name)).Nodup := by
  rw [putNames]
  split
  · exact once
  · next new => exact List.nodup_append.mpr ⟨once, by simp, by simp_all⟩

theorem writtenOnce {written : List (String × String)} (once : (attributes.map (·.name)).Nodup) :
    ((written.foldl (fun done (name, value) => Attribute.put name value done) attributes).map (·.name)).Nodup := by
  induction written generalizing attributes with
  | nil => exact once
  | cons p rest ih => exact ih (putOnce once)

theorem putWritten {a : Attribute} (none : ∀ a ∈ attributes, a.written? = none)
    (mem : a ∈ Attribute.put name value attributes) :
    a.written? = .none := by
  rcases putMem mem with rfl | mem
  · rfl
  · exact none a mem

theorem foldWritten {written : List (String × String)} (none : ∀ a ∈ attributes, a.written? = none) :
    ∀ a ∈ written.foldl (fun done (name, value) => Attribute.put name value done) attributes, a.written? = .none := by
  induction written generalizing attributes with
  | nil => exact none
  | cons p rest ih => exact ih fun a mem => putWritten none mem

theorem renamedForm {fuel : Nat} {lineStart : Bool} {s text : List Char}
    (renamed : Attribute.renameCharset (fuel + 1) lineStart s = some text) :
    (∃ lead body last, s = lead ++ ("charset=".toList ++ body) ∧ text = lead ++ ("charset=".toList ++ (Attribute.encoding ++
        (Attribute.renameCharset fuel last (body.dropWhile (· != ';'))).getD (body.dropWhile (· != ';'))))) ∨
      ∃ c rest more last, s = c :: rest ∧ text = c :: more ∧ Attribute.renameCharset fuel last rest = some more := by
  rw [Attribute.renameCharset.eq_def] at renamed
  generalize "charset=".toList = sign at renamed ⊢
  simp only at renamed
  split at renamed
  · next starts =>
    obtain ⟨body, rfl⟩ := List.isPrefixOf_iff_prefix.mp (Bool.and_eq_true_iff.mp starts).2
    rw [List.drop_left] at renamed
    have same := (Option.some.inj renamed).symm
    rw [List.append_assoc, List.append_assoc] at same
    exact .inl ⟨[], body, _, rfl, same⟩
  · split at renamed
    · cases renamed
    · next c rest _ =>
      split at renamed
      · next starts =>
        obtain ⟨body, rfl⟩ := List.isPrefixOf_iff_prefix.mp (Bool.and_eq_true_iff.mp starts).2
        rw [List.drop_left] at renamed
        have same := (Option.some.inj renamed).symm
        rw [List.append_assoc, List.append_assoc] at same
        exact .inl ⟨[c], body, _, rfl, same⟩
      · obtain ⟨more, behind, rfl⟩ := Option.map_eq_some_iff.mp renamed
        exact .inr ⟨c, rest, more, _, rfl, rfl, behind⟩

theorem valueKeys {front body more : List Char} {key : String}
    (behind : key ∈ placeholders number (String.ofList (Attribute.encoding ++ more)) →
      key ∈ placeholders number (String.ofList (Attribute.encoding ++ body.dropWhile (· != ';'))))
    (mem : key ∈ placeholders number (String.ofList (front ++ ("charset=".toList ++ (Attribute.encoding ++ more))))) :
    key ∈ placeholders number (String.ofList (front ++ ("charset=".toList ++ body))) := by
  have sign {more : List Char} : placeholders number (String.ofList (front ++ ("charset=".toList ++ more))) =
      placeholders number (String.ofList (front ++ "charset".toList)) ++ placeholders number (String.ofList more) := by
    rw [← scanDivided (show Divides '=' by decide), List.append_assoc]
    rfl
  rw [sign] at mem ⊢
  refine List.mem_append.mpr ((List.mem_append.mp mem).imp_right fun mem => ?_)
  have inside := behind mem
  have whole := @List.takeWhile_append_dropWhile _ (· != ';') body
  cases rest : body.dropWhile (· != ';') with
  | nil =>
    rw [rest, List.append_nil, scanPlain (by decide)] at inside
    cases inside
  | cons c more =>
    obtain rfl : c = ';' := by
      have stops := List.head?_dropWhile_not (· != ';') body
      rw [rest] at stops
      simpa using stops
    rw [rest] at inside whole
    rw [scanDivided (by decide), scanPlain (by decide), List.nil_append] at inside
    rw [← whole, scanDivided (by decide)]
    exact List.mem_append_right _ inside

theorem renamedKeys {fuel : Nat} {lineStart : Bool} {front s text : List Char} {key : String}
    (renamed : Attribute.renameCharset fuel lineStart s = some text)
    (mem : key ∈ placeholders number (String.ofList (front ++ text))) :
    key ∈ placeholders number (String.ofList (front ++ s)) := by
  induction fuel generalizing lineStart front s text with
  | zero => cases renamed
  | succ fuel ih =>
    rcases renamedForm renamed with ⟨lead, body, last, rfl, rfl⟩ | ⟨c, rest, more, last, rfl, rfl, behind⟩
    · rw [← List.append_assoc] at mem ⊢
      refine valueKeys (fun inside => ?_) mem
      cases behind : Attribute.renameCharset fuel last (body.dropWhile (· != ';')) with
      | none => rwa [behind] at inside
      | some text =>
        rw [behind] at inside
        exact ih behind inside
    · have inside := @ih last (front ++ [c]) rest more behind (by rwa [List.append_assoc, List.singleton_append])
      rwa [List.append_assoc, List.singleton_append] at inside

theorem formedWritten {written : List (String × String)} : Formed number (Attribute.ofWritten written) where
  once := writtenOnce List.nodup_nil
  written a mem text same := by
    rw [foldWritten (fun _ none => absurd none List.not_mem_nil) a mem] at same
    cases same

theorem setNames {name : String} {text : List Char} : (attributes.map fun a =>
    if a.name == name then { a with written? := some (String.ofList text) } else a).map (·.name) = attributes.map (·.name) := by
  rw [List.map_map]
  refine List.map_congr_left fun a _ => ?_
  simp only [Function.comp_apply]
  split <;> rfl

theorem formedSet {text : List Char} (formed : Formed number attributes) (other : name ≠ idAttribute)
    (within : ∀ a ∈ attributes, a.name = name →
      ∀ key ∈ placeholders number (String.ofList text), key ∈ placeholders number a.value) :
    Formed number (attributes.map fun a => if a.name == name then { a with written? := some (String.ofList text) } else a) where
  once := by rw [setNames]; exact formed.once
  written a mem shown same := by
    obtain ⟨b, given, rfl⟩ := List.mem_map.mp mem
    split at same
    · next named =>
      rw [if_pos named]
      cases same
      have is := beq_iff_eq.mp named
      exact ⟨is ▸ other, within b given is⟩
    · next named =>
      rw [if_neg named]
      exact formed.written b given shown same

theorem formedEncoded (formed : Formed number attributes) : Formed number (Attribute.declareEncoding attributes) := by
  unfold Attribute.declareEncoding
  simp only
  split
  · exact formedSet formed (by decide) fun a _ _ key mem => by
      rw [scanPlain (by decide)] at mem
      cases mem
  · split
    · next content _ found _ =>
      split
      · split
        · next text renamed =>
          refine formedSet formed (by decide) fun a mem named key inside => ?_
          have value := (getMember formed.once).mpr ⟨a, mem, named, rfl⟩
          rw [found] at value
          cases value
          have before := @renamedKeys number _ _ [] _ _ key renamed inside
          rwa [List.nil_append, String.ofList_toList] at before
        · exact formed
      · exact formed
    · exact formed

end Attributes

section Reading

mutual

def FitIn (number : Nat) (hides : Bool) : Node → Prop
  | .text .plain _ => hides = false
  | .text .hidden _ => hides = true
  | .text (.aside _) _ => True
  | .element name attributes children => Formed number attributes ∧ Fit number (hides || hidesText name) children

def Fit (number : Nat) (hides : Bool) : List Node → Prop
  | [] => True
  | n :: rest => FitIn number hides n ∧ Fit number hides rest

end

variable {hides : Bool} {nodes : List Node} {n : Node} {st : Tree.State}

theorem fitAll : Fit number hides nodes ↔ ∀ n ∈ nodes, FitIn number hides n := by
  induction nodes with
  | nil => exact iff_of_true trivial nofun
  | cons n rest ih => rw [Fit, ih, List.forall_mem_cons]

theorem fitReverse (fit : Fit number hides nodes) : Fit number hides nodes.reverse :=
  fitAll.mpr fun n mem => fitAll.mp fit n (List.mem_reverse.mp mem)

def FitStack (number : Nat) : List Tree.Open → Prop
  | [] => True
  | o :: rest =>
    Formed number o.attributes ∧ Fit number ((o :: rest).any (hidesText ·.name)) o.children ∧ FitStack number rest

structure FitState (number : Nat) (st : Tree.State) : Prop where
  stack : FitStack number st.stack
  top : Fit number false st.top

theorem fitAdd (fit : FitState number st) (new : FitIn number (st.stack.any (hidesText ·.name)) n) :
    FitState number (st.add n) := by
  unfold Tree.State.add
  split
  · next closed =>
    rw [closed] at new
    exact ⟨fit.stack, new, fit.top⟩
  · next o rest opens =>
    have stack := fit.stack
    rw [opens] at new stack
    exact ⟨⟨stack.1, ⟨new, stack.2.1⟩, stack.2.2⟩, fit.top⟩

theorem fitText {kind : TextKind} {text : List Char} (fit : FitState number st) (seen : kind ≠ .hidden) :
    FitState number (st.addText kind text) := by
  refine fitAdd fit ?_
  cases kind with
  | plain =>
    simp only
    split
    · next hidden => exact hidden
    · next plain => exact Bool.eq_false_iff.mpr plain
  | hidden => exact absurd rfl seen
  | aside kind => exact trivial

theorem fitFlush (fit : FitState number st) : FitState number st.flush := by
  unfold Tree.State.flush
  split
  · exact fit
  · exact fitText ⟨fit.stack, fit.top⟩ nofun

theorem fitPop (fit : FitState number st) : FitState number st.pop := by
  unfold Tree.State.pop
  split
  · exact fit
  · next o rest opens =>
    have stack := fit.stack
    rw [opens] at stack
    obtain ⟨formed, inner, others⟩ := stack
    refine fitAdd ⟨others, fit.top⟩ ⟨formed, ?_⟩
    rw [Bool.or_comm]
    exact fitReverse inner

theorem fitMany {count : Nat} (fit : FitState number st) : FitState number (st.popMany count) := by
  induction count generalizing st with
  | zero => exact fit
  | succ count ih => exact ih (fitPop fit)

theorem fitStep {token : Token} (fit : FitState number st) : FitState number (st.step token) := by
  cases token with
  | text t => exact ⟨fit.stack, fit.top⟩
  | aside kind t =>
    rw [Tree.State.step]
    exact fitText (fitFlush fit) TextKind.noConfusion
  | closing name =>
    rw [Tree.State.step]
    split
    · exact ⟨fit.stack, fit.top⟩
    · simp only
      split
      · exact fitMany (fitFlush fit)
      · exact fitFlush fit
  | opening name written closed =>
    have formed : Formed number (if name == "meta" then Attribute.declareEncoding (Attribute.ofWritten written)
        else Attribute.ofWritten written) := by
      split
      · exact formedEncoded formedWritten
      · exact formedWritten
    have opened : FitState number (st.flush.push name (if name == "meta" then
        Attribute.declareEncoding (Attribute.ofWritten written) else Attribute.ofWritten written)) :=
      ⟨⟨formed, trivial, (fitFlush fit).stack⟩, (fitFlush fit).top⟩
    rw [Tree.State.step]
    simp only
    split
    · exact fitPop opened
    split
    · exact ⟨(fitPop opened).stack, (fitPop opened).top⟩
    · exact opened

theorem fitTree {markup : String} {tree : List Node} (read : readTree markup = .ok tree) : Fit number false tree := by
  obtain ⟨tokens, -, same⟩ := bindOk.mp read
  cases same
  have fold (tokens : List Token) (st : Tree.State) (fit : FitState number st) :
      FitState number (tokens.foldl Tree.State.step st) := by
    induction tokens generalizing st with
    | nil => exact fit
    | cons token rest ih => exact ih _ (fitStep fit)
  exact fitReverse (fitMany (fitFlush (fold tokens {} ⟨trivial, trivial⟩))).top

mutual

theorem formedStartsIn {hides : Bool} : (n : Node) → FitIn number hides n → ∀ t ∈ startsIn n, Formed number t.2
  | .text _ _, _ => nofun
  | .element _ _ children, fit => List.forall_mem_cons.mpr ⟨fit.1, formedStarts children fit.2⟩

theorem formedStarts {hides : Bool} :
    (nodes : List Node) → Fit number hides nodes → ∀ t ∈ starts nodes, Formed number t.2
  | [], _ => nofun
  | n :: rest, fit => List.forall_mem_append.mpr ⟨formedStartsIn n fit.1, formedStarts rest fit.2⟩

end

end Reading

end LiveMarkup.Render
