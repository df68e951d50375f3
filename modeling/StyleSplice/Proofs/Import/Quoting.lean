import StyleSplice.Proofs.Import.Written
import StyleSplice.Proofs.Sheet.Whole

/-!
# The quotes around a target

An import can be written with its target in quotes of either kind, in `url()`, or in both. Quotes hide
the target from the reader of sheets; in `url()` without quotes it is read like everything else, and
comments and square brackets count. Otherwise the form makes no difference to what is read.
-/

namespace StyleSplice

/-- The characters that `url()` may hold without quotes: none of the ones with a meaning there, and no
white space or control characters. -/
def isUrlChar (c : Char) : Bool :=
  !isQuote c && (c != '(' && (c != ')' && (c != '\\' && (32 < c.toNat && c.toNat != 127))))

theorem isUrlChar_iff {c : Char} : isUrlChar c = true ↔ isQuote c = false ∧ c ≠ '(' ∧ c ≠ ')' ∧
    c ≠ '\\' ∧ 32 < c.toNat ∧ c.toNat ≠ 127 := by
  simp [isUrlChar]

namespace TargetSyntax

variable {u c : Text}

/-- The target as it is written. -/
def around (x : TargetSyntax) (u : Text) : Text := x.front ++ (u ++ x.back)

/-- The raw text after the name of an import with a condition behind its target. -/
def raw (x : TargetSyntax) (u c : Text) : Text := ' ' :: (x.around u ++ ' ' :: c)

/-- A sheet that is an import with a condition behind its target. -/
def sheet (x : TargetSyntax) (u c : Text) : Text := '@' :: ("import".toList ++ (x.raw u c ++ [';']))

/-- Behind a target stands no white space of its own. -/
theorem exists_back (x : TargetSyntax) : ∃ s e, x.back = s ++ [e] ∧ isGap e = false := by
  match x with
  | .quoted .single => exact ⟨[], _, rfl, rfl⟩
  | .quoted .double => exact ⟨[], _, rfl, rfl⟩
  | .inUrl none => exact ⟨[], _, rfl, rfl⟩
  | .inUrl (some .single) => exact ⟨['\x27'], _, rfl, rfl⟩
  | .inUrl (some .double) => exact ⟨['\x22'], _, rfl, rfl⟩

/-- A target as it is written starts with a quote or with `url`. -/
theorem head?_around (x : TargetSyntax) (u : Text) : ∃ c ∈ ['\x27', '\x22', 'u'],
    ∃ t, x.around u = c :: t := by
  match x with
  | .quoted .single => exact ⟨'\x27', by simp, _, rfl⟩
  | .quoted .double => exact ⟨'\x22', by simp, _, rfl⟩
  | .inUrl none => exact ⟨'u', by simp, _, rfl⟩
  | .inUrl (some .single) => exact ⟨'u', by simp, _, rfl⟩
  | .inUrl (some .double) => exact ⟨'u', by simp, _, rfl⟩

/-- The parameters are the target and the condition, less the white space behind it. -/
theorem trim_raw (x : TargetSyntax) (u c : Text) :
    Text.trim isGap (x.raw u c) = x.around u ++ Text.trimEnd isGap (' ' :: c) := by
  obtain ⟨a, ha, t, ht⟩ := x.head?_around u
  obtain ⟨s, e, hs, he⟩ := x.exists_back
  have hclear : Text.Clear isGap (x.around u ++ ' ' :: c) := by
    rw [ht, List.cons_append, Text.clear_cons]
    simp only [List.mem_cons, List.not_mem_nil, or_false] at ha
    rcases ha with rfl | rfl | rfl <;> rfl
  have hspace : Text.All isGap [' '] := by simp [isGap]
  have hstart : Text.trimStart isGap (x.raw u c) = x.around u ++ ' ' :: c :=
    (Text.trimStart_of_all hspace _).trans (Text.trimStart_of_clear hclear)
  have hend := Text.trimEnd_append_cons he (x.front ++ (u ++ s)) (' ' :: c)
  rw [Text.trim, hstart]
  simpa [around, hs] using hend

/-- Whatever stands behind it, a target is found in any form. -/
theorem exists_rawTarget? (x : TargetSyntax) (hu : ∀ c ∈ u, isUrlChar c = true) (e : Text) :
    ∃ t, Import.rawTarget? (x.around u ++ e) = some t ∧
      Text.trim isBlank t.raw = Text.trim isBlank u ∧ t.rest = e := by
  have hurl : ∀ s, afterWord? "url(".toList ("url(".toList ++ s) = some s := fun s => rfl
  have hquote : ∀ {q : Char}, isQuote q = true → q ∉ u := fun hq hm => by
    rw [(isUrlChar_iff.1 (hu _ hm)).1] at hq
    cases hq
  match x with
  | .quoted q =>
    have hform : Import.TargetForm [q.char] (q.char :: e) ⟨u, some q.char, false, 1, e⟩ :=
      .quoted q.isQuote_char (hquote q.isQuote_char)
    have hread := Import.rawTarget?_of_form hform
    exact ⟨_, by simpa [around, front, back] using hread, rfl, rfl⟩
  | .inUrl none =>
    have hclear : Text.Clear isQuote (Text.trimStart isBlank u) := fun c hc =>
      (isUrlChar_iff.1 (hu c ((List.dropWhile_suffix isBlank).subset (List.mem_of_mem_head? hc)))).1
    have hread := Import.rawTarget?_bareUrl rfl hurl hclear
      (fun hm => (isUrlChar_iff.1 (hu _ hm)).2.2.1 rfl) e
    refine ⟨_, by simpa [around, front, back] using hread, ?_, rfl⟩
    simpa using (Text.trimmed_trim isBlank u).trim_eq Text.all_nil Text.all_nil
  | .inUrl (some q) =>
    have hread := Import.rawTarget?_of_form (Import.targetForm_quotedUrl rfl hurl
      Text.all_nil q.isQuote_char (hquote q.isQuote_char) Text.all_nil e)
    exact ⟨_, by simpa [around, front, back] using hread, rfl, rfl⟩

theorem stringBody_of_isUrlChar (hu : ∀ c ∈ u, isUrlChar c = true) {q : Char}
    (hq : isQuote q = true) : StringBody q u := by
  have hchars : ∀ c ∈ u, c ≠ '\\' ∧ c ≠ q := fun c hc => by
    obtain ⟨hquote, -, -, hbackslash, -⟩ := isUrlChar_iff.1 (hu c hc)
    refine ⟨hbackslash, ?_⟩
    rintro rfl
    rw [hquote] at hq
    cases hq
  simpa using StringBody.chars hchars .nil

/-- Without square brackets and comments a target is made of single characters. -/
theorem whole_of_isUrlChar (hu : ∀ c ∈ u, isUrlChar c = true) (hopened : '[' ∉ u)
    (hclosed : ']' ∉ u) (hcomment : ¬ "/*".toList <:+: u) : Whole true u := by
  induction u with
  | nil => exact .nil
  | cons c u ih =>
    obtain ⟨hquote, hopen, hclose, hbackslash, -⟩ := isUrlChar_iff.1 (hu c List.mem_cons_self)
    obtain ⟨hopen', hopened⟩ := not_or.1 (mt List.mem_cons.2 hopened)
    obtain ⟨hclose', hclosed⟩ := not_or.1 (mt List.mem_cons.2 hclosed)
    rw [List.infix_cons_iff, not_or] at hcomment
    have hrest := ih (fun x hx => hu x (List.mem_cons_of_mem _ hx)) hopened hclosed hcomment.2
    refine .char (isSingle_iff.2 ⟨hquote, hbackslash, ?_, ?_⟩) (by simp [Lexicon.all]) ?_ hrest
    · exact not_or.2 ⟨hopen, Ne.symm hopen'⟩
    · exact not_or.2 ⟨hclose, Ne.symm hclose'⟩
    · rintro rfl hstar
      obtain ⟨t, rfl⟩ := List.head?_eq_some_iff.1 hstar
      exact hcomment.1 ⟨t, rfl⟩

/-- In quotes nothing of a target is seen; without them only its tokens are. -/
theorem closed_around (x : TargetSyntax) (hu : ∀ c ∈ u, isUrlChar c = true)
    (hbare : x = .inUrl none → Whole true u) : Closed (x.around u) := by
  have hstring : ∀ (q : Quote) (inner : Bool), Whole inner (q.char :: (u ++ q.char :: [])) :=
    fun q inner => .string q.isQuote_char (stringBody_of_isUrlChar hu q.isQuote_char) trivial .nil
  have hurl : ∀ v : Text, Whole true v → Closed ("url(".toList ++ (v ++ [')'])) := fun v hv => by
    have hword : ∀ c ∈ "url".toList, isSingle c = true ∧ c ≠ '/' ∧ Lexicon.all.char false c := by
      simp [isSingle, isQuote, isStop, Lexicon.all]
    have hwhole : Whole false ("url".toList ++ '(' :: (v ++ ')' :: [])) :=
      .chars hword (.bracketed (.inl rfl) (.inl rfl) trivial hv .nil)
    exact hwhole.closed
  cases x with
  | quoted q => exact (hstring q false).closed
  | inUrl q =>
    cases q with
    | none => exact hurl u (hbare rfl)
    | some q => simpa [around, front, back] using hurl _ (hstring q true)

/-- A target that is closed as it is written leaves it to the condition whether the import is. -/
theorem closed_raw_iff (x : TargetSyntax) (h : Closed (x.around u)) :
    Closed (x.raw u c) ↔ Closed (' ' :: c) := by
  have hspace : Closed [' '] := by decide
  obtain ⟨a, ha, t, ht⟩ := x.head?_around u
  have hhead : ∀ y, y ∉ ['\x27', '\x22', 'u'] → (x.around u ++ ' ' :: c).head? ≠ some y := by
    rintro y hy he
    rw [ht] at he
    cases he
    exact hy ha
  calc
    Closed (x.raw u c) ↔ Closed (x.around u ++ ' ' :: c) :=
      closed_append_iff hspace (hhead '*' (by decide)) (hhead '/' (by decide))
    _ ↔ Closed (' ' :: c) := closed_append_iff h (by simp) (by simp)

theorem parse_sheet_iff (x : TargetSyntax) (origin : Option Text) {h : AtHead} :
    Sheet.parse (x.sheet u c) origin = .ok ⟨[.statement [] h true], [], origin⟩ ↔
      Closed (x.raw u c) ∧ h = .ofRaw "import".toList (x.raw u c) :=
  parse_statement_iff "import".toList (x.raw u c) rfl (Text.clear_cons.2 (by decide))

end TargetSyntax

/-- The sheet is one import, up to its semicolon, of the target under the conditions. -/
def IsImport (source : Text) (origin : Option Text) (target : Text) (layer supports : Option Text)
    (media : Text) : Prop :=
  ∃ h d, Sheet.parse source origin = .ok ⟨[.statement [] h true], [], origin⟩ ∧
    Import.ofNode? (.statement [] h true) origin = some d ∧ d.target = target ∧ d.layer = layer ∧
    d.supports = supports ∧ d.media = media

open TargetSyntax in
/-- If an import of a target that needs no quotes is the whole of a sheet in double quotes, then it
says the same in single quotes and in `url()` with quotes of either kind. In `url()` without quotes
it does so if and only if the target, read like everything else, leaves nothing open that reaches over
the semicolon, as is the case if it holds no square brackets and no start of a comment. -/
theorem import_forms_agree {u c : Text} (hu : ∀ x ∈ u, isUrlChar x = true) {origin : Option Text}
    {h : AtHead} (hparse : Sheet.parse (sheet (.quoted .double) u c) origin =
      .ok ⟨[.statement [] h true], [], origin⟩) :
    ∃ layer supports media,
      (∀ x, x ≠ .inUrl none →
        IsImport (sheet x u c) origin (Text.trim isBlank u) layer supports media) ∧
      (IsImport (sheet (.inUrl none) u c) origin (Text.trim isBlank u) layer supports media ↔
        Closed (raw (.inUrl none) u c)) ∧
      ('[' ∉ u → ']' ∉ u → ¬ "/*".toList <:+: u →
        IsImport (sheet (.inUrl none) u c) origin (Text.trim isBlank u) layer supports media) := by
  have hdouble : Closed (raw (.quoted .double) u c) := ((parse_sheet_iff _ _).1 hparse).1
  have hcondition : Closed (' ' :: c) :=
    (closed_raw_iff (.quoted .double) (closed_around _ hu (by simp))).1 hdouble
  rcases hlayer : Import.takeLayer (Text.trim isBlank (Text.trimEnd isGap (' ' :: c)))
    with ⟨layer, rest⟩
  rcases hsupports : Import.takeSupports rest with ⟨supports, media⟩
  have hsays : ∀ x, Closed (raw x u c) →
      IsImport (sheet x u c) origin (Text.trim isBlank u) layer supports media := fun x hx => by
    obtain ⟨t, ht, htarget, hrest⟩ := exists_rawTarget? x hu (Text.trimEnd isGap (' ' :: c))
    have hd : Import.decode? (AtHead.ofRaw "import".toList (x.raw u c)).params origin = some
        { target := Text.trim isBlank t.raw, quote := t.quote, inUrl := t.inUrl, media, layer,
          supports, origin, start := t.start, stop := t.start + t.raw.length } := by
      rw [AtHead.ofRaw_params, trim_raw, Import.decode?, ht]
      simp only [hrest, hlayer, hsupports]
    have hname : (AtHead.ofRaw "import".toList (x.raw u c)).name.lower = "import".toList := by
      rw [AtHead.ofRaw_name]
      rfl
    exact ⟨_, _, (parse_sheet_iff x origin).2 ⟨hx, rfl⟩,
      Import.ofNode?_eq_some_iff.2 ⟨_, _, _, rfl, hname, hd⟩, htarget, rfl, rfl, rfl⟩
  have hclosed : ∀ x, (x = .inUrl none → Whole true u) → Closed (raw x u c) := fun x hx =>
    (closed_raw_iff x (closed_around x hu hx)).2 hcondition
  refine ⟨layer, supports, media, fun x hx => hsays x (hclosed x fun he => absurd he hx),
    ⟨?_, hsays _⟩, fun hopened hclosing hcomment => ?_⟩
  · rintro ⟨_, _, hread, -⟩
    exact ((parse_sheet_iff _ _).1 hread).1
  · exact hsays _ (hclosed _ fun _ => whole_of_isUrlChar hu hopened hclosing hcomment)

open TargetSyntax in
/-- A target with a comma and slashes, and a condition of each kind. -/
theorem import_forms_agree_conditions :
    let u := "//h/a,b/c.css".toList
    (∀ x ∈ u, isUrlChar x = true) ∧
      ∃ layer supports media,
        IsImport "@import '//h/a,b/c.css' layer(x) supports(y: z) print ;".toList none u layer supports
          media ∧
        IsImport "@import url(//h/a,b/c.css) layer(x) supports(y: z) print ;".toList none u layer
          supports media := by
  intro u
  let c := "layer(x) supports(y: z) print ".toList
  have hu : (u.all isUrlChar) = true := rfl
  have hu' : ∀ x ∈ u, isUrlChar x = true := List.all_eq_true.1 hu
  have hclosed : Closed (raw (.quoted .double) u c) := by decide +kernel
  have hparse := (parse_sheet_iff (.quoted .double) none).2 ⟨hclosed, rfl⟩
  obtain ⟨layer, supports, media, hquoted, -, hbare⟩ := import_forms_agree hu' hparse
  exact ⟨hu', layer, supports, media, hquoted (.quoted .single) (by simp),
    hbare (by decide) (by decide) (by decide +kernel)⟩

open TargetSyntax in
/-- Without quotes a comment may open in the target, or a bracket that is not closed there. -/
theorem import_forms_differ :
    let u := "https://h/*.css".toList
    let v := "a[b.css".toList
    (u.all isUrlChar && v.all isUrlChar) = true ∧
      (∃ h, Sheet.parse "@import \"https://h/*.css\" print;".toList none =
        .ok ⟨[.statement [] h true], [], none⟩) ∧
      (∃ h, Sheet.parse "@import \"a[b.css\" print;".toList none =
        .ok ⟨[.statement [] h true], [], none⟩) ∧
      (∀ h, Sheet.parse "@import url(https://h/*.css) print;".toList none ≠
        .ok ⟨[.statement [] h true], [], none⟩) ∧
      (∀ h, Sheet.parse "@import url(a[b.css) print;".toList none ≠
        .ok ⟨[.statement [] h true], [], none⟩) := by
  intro u v
  let c := "print".toList
  have hopens : ∀ t, (t = u ∨ t = v) →
      Closed (raw (.quoted .double) t c) ∧ ¬ Closed (raw (.inUrl none) t c) := by
    rintro t (rfl | rfl) <;> decide +kernel
  have hreads : ∀ t, (t = u ∨ t = v) → ∃ h, Sheet.parse (sheet (.quoted .double) t c) none =
      .ok ⟨[.statement [] h true], [], none⟩ :=
    fun t ht => ⟨_, (parse_sheet_iff _ none).2 ⟨(hopens t ht).1, rfl⟩⟩
  have hfails : ∀ t, (t = u ∨ t = v) → ∀ h, Sheet.parse (sheet (.inUrl none) t c) none ≠
      .ok ⟨[.statement [] h true], [], none⟩ :=
    fun t ht h hread => (hopens t ht).2 ((parse_sheet_iff _ _).1 hread).1
  exact ⟨rfl, hreads u (.inl rfl), hreads v (.inr rfl), hfails u (.inl rfl), hfails v (.inr rfl)⟩

end StyleSplice
