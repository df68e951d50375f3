import StyleSplice.Proofs.Url.Parts

/-!
# Steps up and down in the tree of an address

A relative reference is a list of segments: some that stay, some that go up, and names that go down.
Against an address of folders and a file it leads to the folders that are left after the steps up,
followed by its own names; steps above the root are lost.
-/

namespace StyleSplice

/-- The segment that stays where it is. -/
def hereSegment : Text := ".".toList

/-- The segment that goes to the parent. -/
def parentSegment : Text := "..".toList

/-- The characters of a name in a path: none that delimits anything, and none that is dropped. -/
def isNameChar (c : Char) : Bool :=
  !(['/', '?', '#', ';', ':'].contains c || UrlParts.isDropped c)

/-- A segment that goes down: neither empty nor a dot segment, and free of delimiters. -/
structure PathName (s : Text) : Prop where
  ne_nil : s ≠ []
  goesDown : UrlParts.isDotSegment s = false
  plain : ∀ c ∈ s, isNameChar c = true

/-- An authority without brackets: ASCII, and free of what would end it. -/
structure PlainAuthority (s : Text) : Prop where
  ne_nil : s ≠ []
  ascii : ∀ c ∈ s, c.toNat < 128
  plain : ∀ c ∈ s, (['/', '?', '#', '[', ']'].contains c || UrlParts.isDropped c) = false

/-- The segments of a relative reference: some that stay, some that go up, and names. -/
def walkOf (j k : Nat) (names : List Text) : List Text :=
  List.replicate j hereSegment ++ (List.replicate k parentSegment ++ names)

/-- The path of segments from the root. -/
def rootedPath (segments : List Text) : Text := Text.joinWith ['/'] ([] :: segments)

/-- The address of a path from the root. -/
def addressOf (scheme authority : Text) (segments : List Text) : Text :=
  scheme ++ ':' :: '/' :: '/' :: (authority ++ rootedPath segments)

instance (s : Text) : Decidable (PathName s) :=
  decidable_of_iff
    ((!s.isEmpty && (!UrlParts.isDotSegment s && s.all isNameChar)) = true) <| by
      simp only [Bool.and_eq_true, Bool.not_eq_true', List.all_eq_true, List.isEmpty_eq_false_iff]
      exact ⟨fun h => ⟨h.1, h.2.1, h.2.2⟩, fun h => ⟨h.1, h.2, h.3⟩⟩

instance (s : Text) : Decidable (PlainAuthority s) :=
  decidable_of_iff
    ((!s.isEmpty && (s.all (fun c => c.toNat < 128) &&
      s.all fun c => !(['/', '?', '#', '[', ']'].contains c || UrlParts.isDropped c))) = true) <| by
      simp only [Bool.and_eq_true, Bool.not_eq_true', List.all_eq_true, List.isEmpty_eq_false_iff,
        decide_eq_true_eq]
      exact ⟨fun h => ⟨h.1, h.2.1, h.2.2⟩, fun h => ⟨h.1, h.2, h.3⟩⟩

variable {scheme authority : Text} {names segments : List Text}

theorem isNameChar_iff {c : Char} : isNameChar c = true ↔
    c ≠ '/' ∧ c ≠ '?' ∧ c ≠ '#' ∧ c ≠ ';' ∧ c ≠ ':' ∧ UrlParts.isDropped c = false := by
  simp [isNameChar, and_assoc]

theorem forall_mem_concat {name : Text} (hnames : ∀ s ∈ names, PathName s) (hname : PathName name) :
    ∀ s ∈ names ++ [name], PathName s :=
  List.forall_mem_append.2 ⟨hnames, List.forall_mem_singleton.2 hname⟩

theorem rootedPath_eq (h : segments ≠ []) :
    rootedPath segments = '/' :: Text.joinWith ['/'] segments :=
  Text.joinWith_nil_cons h

namespace UrlParts

/-- Segments are walked one after the other. -/
theorem climb_append (seen front back : List Text) :
    climb seen (front ++ back) = climb (climb seen front) back := by
  induction front generalizing seen with
  | nil => rfl
  | cons s front ih =>
    rw [List.cons_append, climb, climb]
    split
    · exact ih _
    · split <;> exact ih _

theorem climb_here (seen : List Text) (j : Nat) :
    climb seen (List.replicate j hereSegment) = seen := by
  induction j with
  | zero => rfl
  | succ j ih =>
    rw [List.replicate_succ, climb, if_neg (by decide), if_pos (show hereSegment = ".".toList from rfl)]
    exact ih

/-- Every step up leaves what was entered last, as long as there is something to leave. -/
theorem climb_parent (seen : List Text) (k : Nat) :
    climb seen (List.replicate k parentSegment) = seen.drop k := by
  induction k generalizing seen with
  | zero => rfl
  | succ k ih =>
    rw [List.replicate_succ, climb, if_pos (show parentSegment = "..".toList from rfl), ih,
      List.drop_drop, Nat.add_comm]

/-- Every other segment is entered. -/
theorem climb_down (seen : List Text) (h : ∀ s ∈ names, isDotSegment s = false) :
    climb seen names = names.reverse ++ seen := by
  induction names generalizing seen with
  | nil => rfl
  | cons s names ih =>
    have hs : ¬ s = "..".toList ∧ ¬ s = ".".toList := by
      have := h s (by simp)
      simp only [isDotSegment, Bool.or_eq_false_iff, decide_eq_false_iff_not] at this
      exact this.symm
    rw [climb, if_neg hs.1, if_neg hs.2, ih _ fun s' hs' => h s' (List.mem_cons_of_mem _ hs'),
      List.reverse_cons, List.append_assoc]
    rfl

/-- A list whose members behind the first are not empty stays as it is. -/
theorem dropInnerEmpty_eq_self {s : Text} (h : ∀ s' ∈ names, s' ≠ []) :
    dropInnerEmpty (s :: names) = s :: names := by
  cases hnames : names.getLast? with
  | none =>
    rw [List.getLast?_eq_none_iff.1 hnames]
    rfl
  | some last =>
    obtain ⟨front, rfl⟩ := List.getLast?_eq_some_iff.1 hnames
    have hfront : front.filter (fun t => !t.isEmpty) = front :=
      List.filter_eq_self.2 fun t ht => by simpa using h t (by simp [ht])
    cases hcons : front ++ [last] with
    | nil => simp at hcons
    | cons t rest =>
      rw [dropInnerEmpty, ← hcons, List.dropLast_concat, hnames, hfront]
      · rfl
      · simp

/-- A walk that ends in a name leads to a path that ends in it. -/
theorem pathOf_eq {name : Text} (hname : PathName name) :
    pathOf (segments ++ [name]) =
      Text.joinWith ['/'] ((climb [] segments).reverse ++ [name]) := by
  have hwalk : (climb [] (segments ++ [name])).reverse = (climb [] segments).reverse ++ [name] := by
    rw [climb_append, climb_down _ (by simpa using hname.goesDown)]
    simp
  have hne : Text.joinWith ['/'] ((climb [] segments).reverse ++ [name]) ≠ [] := by
    unfold Text.joinWith
    cases (climb [] segments).reverse with
    | nil =>
      rw [List.nil_append, List.intercalate_singleton]
      exact hname.ne_nil
    | cons s walked =>
      rw [List.cons_append, List.intercalate_cons_of_ne_nil (by simp)]
      simp
  unfold pathOf
  rw [List.getLast?_concat, Option.map_some, Option.getD_some, hname.goesDown]
  simp only [Bool.false_eq_true, if_false, List.append_nil]
  rw [hwalk, if_neg (by simpa using hne)]

variable {folders down : List Text} {file name : Text} {j k : Nat}

theorem segment_of_mem_walkOf {s : Text} (hnames : ∀ s ∈ names, PathName s)
    (h : s ∈ walkOf j k names) : s ≠ [] ∧ ∀ c ∈ s, isNameChar c = true := by
  rcases List.mem_append.1 h with h | h
  · obtain rfl := (List.mem_replicate.1 h).2
    exact by decide
  · rcases List.mem_append.1 h with h | h
    · obtain rfl := (List.mem_replicate.1 h).2
      exact by decide
    · exact ⟨(hnames s h).ne_nil, (hnames s h).plain⟩

/-- The empty segment of the root is entered like a folder, so it can be left like one. -/
theorem climb_rooted (hnames : ∀ s ∈ names, PathName s) :
    climb [] ([] :: names) = ([] :: names).reverse := by
  rw [climb_down [] fun s hs => ?_, List.append_nil]
  rcases List.mem_cons.1 hs with rfl | hs
  · rfl
  · exact (hnames s hs).goesDown

/-- From the folders of a base the walk leaves as many as it has steps up, and enters its names. -/
theorem climb_walkOf (hfolders : ∀ s ∈ folders, PathName s) (hdown : ∀ s ∈ down, PathName s) :
    (climb [] ([] :: folders ++ walkOf j k down)).reverse =
      ([] :: folders).take (folders.length + 1 - k) ++ down := by
  rw [climb_append, climb_rooted hfolders, walkOf, climb_append, climb_here, climb_append, climb_parent,
    climb_down _ fun s hs => (hdown s hs).goesDown, List.reverse_append, List.reverse_reverse,
    List.drop_reverse, List.reverse_reverse, List.length_cons]

theorem splitOn_joinWith (hne : segments ≠ [])
    (h : ∀ s ∈ segments, ∀ c ∈ s, isNameChar c = true) :
    (Text.joinWith ['/'] segments).splitOn '/' = segments :=
  List.splitOn_intercalate '/' (fun s hs hm => (isNameChar_iff.1 (h s hs _ hm)).1 rfl) hne

theorem splitOn_rootedPath (h : ∀ s ∈ segments, PathName s) :
    (rootedPath segments).splitOn '/' = [] :: segments := by
  refine splitOn_joinWith (by simp) fun s hs c hc => ?_
  rcases List.mem_cons.1 hs with rfl | hs
  · cases hc
  · exact (h s hs).plain c hc

theorem head?_joinWith_ne (h : ∀ s ∈ segments, s ≠ [] ∧ ∀ c ∈ s, isNameChar c = true) :
    (Text.joinWith ['/'] segments).head? ≠ some '/' := by
  cases segments with
  | nil => simp [Text.joinWith]
  | cons s segments =>
    obtain ⟨hne, hplain⟩ := h s (by simp)
    rw [Text.head?_joinWith segments hne]
    intro hhead
    exact (isNameChar_iff.1 (hplain _ (List.mem_of_mem_head? hhead))).1 rfl

theorem joinWith_ne_nil (hne : segments ≠ [])
    (h : ∀ s ∈ segments, s ≠ [] ∧ ∀ c ∈ s, isNameChar c = true) :
    Text.joinWith ['/'] segments ≠ [] := by
  obtain ⟨s, segments, rfl⟩ := List.exists_cons_of_ne_nil hne
  have hs := (h s (by simp)).1
  intro hnil
  have hhead : (Text.joinWith ['/'] (s :: segments)).head? = s.head? :=
    Text.head?_joinWith segments hs
  rw [hnil, List.head?_nil, eq_comm, List.head?_eq_none_iff] at hhead
  exact hs hhead

theorem mergePath_walkOf (hfolders : ∀ s ∈ folders, PathName s) (hfile : PathName file)
    (hdown : ∀ s ∈ down, PathName s) (hname : PathName name) :
    mergePath (rootedPath (folders ++ [file]))
        (Text.joinWith ['/'] (walkOf j k (down ++ [name]))) =
      Text.joinWith ['/'] (([] :: folders).take (folders.length + 1 - k) ++ (down ++ [name])) := by
  have hnames := forall_mem_concat hdown hname
  have hsegments := fun s hs => segment_of_mem_walkOf (s := s) (j := j) (k := k) hnames hs
  have hown : (Text.joinWith ['/'] (walkOf j k (down ++ [name]))).splitOn '/' =
      walkOf j k (down ++ [name]) :=
    splitOn_joinWith (by simp [walkOf]) fun s hs => (hsegments s hs).2
  have hbase := splitOn_rootedPath (forall_mem_concat hfolders hfile)
  have hwhole : ∀ s ∈ folders ++ walkOf j k (down ++ [name]), s ≠ [] := by
    intro s hs
    rcases List.mem_append.1 hs with hs | hs
    · exact (hfolders s hs).ne_nil
    · exact (hsegments s hs).1
  -- A walk starts at the folders: the merge leaves out the file.
  have hlast : ([] :: (folders ++ [file])).getLast? = some file := by
    rw [← List.cons_append, List.getLast?_concat]
  unfold mergePath
  rw [if_neg (head?_joinWith_ne hsegments), hown, hbase]
  dsimp only
  rw [hlast, if_neg (by simpa using hfile.ne_nil), ← List.cons_append, List.dropLast_concat,
    List.cons_append, dropInnerEmpty_eq_self hwhole]
  have hshape : [] :: (folders ++ walkOf j k (down ++ [name])) =
      ([] :: folders ++ walkOf j k down) ++ [name] := by
    simp [walkOf]
  rw [hshape, pathOf_eq hname, climb_walkOf hfolders hdown, List.append_assoc]

/-- A path from the root takes nothing from the base. -/
theorem mergePath_rooted (base : Text) (hdown : ∀ s ∈ down, PathName s) (hname : PathName name) :
    mergePath base (rootedPath (down ++ [name])) = rootedPath (down ++ [name]) := by
  have hown : (rootedPath (down ++ [name])).splitOn '/' = [] :: down ++ [name] :=
    splitOn_rootedPath (forall_mem_concat hdown hname)
  unfold mergePath
  rw [if_pos (by rw [rootedPath_eq (by simp)]; rfl), hown, pathOf_eq hname, climb_rooted hdown,
    List.reverse_reverse]
  rfl

/-- An authority stands in front of a path that starts with a slash, put there if need be. -/
theorem write_path {path : Text} (hscheme : scheme ≠ []) (hauthority : authority ≠ [])
    (hpath : path ≠ []) : write { scheme, authority, path } [] =
      scheme ++ ':' :: '/' :: '/' ::
        (authority ++ (if path.head? = some '/' then path else '/' :: path)) := by
  have hs : scheme.isEmpty = false := by simpa using hscheme
  have ha : authority.isEmpty = false := by simpa using hauthority
  have hp : path.isEmpty = false := by simpa using hpath
  unfold write
  simp only [hs, ha, hp, List.isEmpty_nil, if_true, Bool.not_false, Bool.true_or, Bool.true_and,
    Bool.false_eq_true, if_false, List.append_nil, List.append_assoc]
  by_cases hhead : path.head? = some '/'
  · simp [hhead]
  · simp [hhead]

/-- A path reference takes scheme and authority from the base. -/
theorem join_path {base reference basePath path : Text} (hscheme : IsWebScheme scheme)
    (hbase : parse base = .ok { scheme, authority, path := basePath })
    (hreference : parse reference scheme = .ok { scheme, path })
    (hauthority : authority ≠ []) (hpath : path ≠ []) (hmerged : mergePath basePath path ≠ [])
    (hb : ';' ∉ basePath) (hp : ';' ∉ path) :
    join base reference = .ok (scheme ++ ':' :: '/' :: '/' :: (authority ++
      (if (mergePath basePath path).head? = some '/' then mergePath basePath path
        else '/' :: mergePath basePath path))) := by
  have hne : scheme ≠ [] := by simpa using hscheme.known.1
  rw [join_of_parse hbase hscheme hreference (.inr hpath) hp,
    splitParameters_of_notMem (u := { scheme, authority, path := basePath }) hb]
  exact congrArg Except.ok (write_path hne hauthority hmerged)

/-- Steps above the root are lost: what is left of the folders still stands below the root. -/
theorem rooted_joinWith_take (n : Nat) (hnames : ∀ s ∈ names, s ≠ [] ∧ ∀ c ∈ s, isNameChar c = true)
    (hne : names ≠ []) (path : Text)
    (hpath : path = Text.joinWith ['/'] (([] :: folders).take n ++ names)) :
    path ≠ [] ∧ (if path.head? = some '/' then path else '/' :: path) =
      rootedPath (folders.take (n - 1) ++ names) := by
  cases n with
  | zero =>
    -- The walk has left the root as well, and the slash behind the authority brings it back.
    rw [List.take_zero, List.nil_append] at hpath
    rw [Nat.zero_sub, List.take_zero, List.nil_append, rootedPath_eq hne, ← hpath,
      if_neg (hpath ▸ head?_joinWith_ne hnames)]
    exact ⟨hpath ▸ joinWith_ne_nil hne hnames, rfl⟩
  | succ n =>
    rw [List.take_succ_cons, List.cons_append, ← rootedPath, rootedPath_eq (by simp [hne])] at hpath
    rw [Nat.add_sub_cancel, rootedPath_eq (by simp [hne]), hpath]
    exact ⟨by simp, if_pos rfl⟩

end UrlParts

theorem notMem_joinWith {c : Char} (hsegments : ∀ s ∈ segments, ∀ c ∈ s, isNameChar c = true)
    (hslash : c ≠ '/') (hc : isNameChar c = false) : c ∉ Text.joinWith ['/'] segments := by
  intro hm
  rcases Text.mem_joinWith hm with rfl | ⟨s, hs, hm⟩
  · exact hslash rfl
  · rw [hsegments s hs c hm] at hc
    cases hc

theorem isDropped_of_mem_joinWith {c : Char}
    (hsegments : ∀ s ∈ segments, ∀ c ∈ s, isNameChar c = true)
    (h : c ∈ Text.joinWith ['/'] segments) : UrlParts.isDropped c = false := by
  rcases Text.mem_joinWith h with rfl | ⟨s, hs, hm⟩
  · rfl
  · exact (isNameChar_iff.1 (hsegments s hs c hm)).2.2.2.2.2

theorem parse_addressOf (hscheme : UrlParts.IsWebScheme scheme)
    (hauthority : PlainAuthority authority)
    (hsegments : ∀ s ∈ segments, ∀ c ∈ s, isNameChar c = true) (hne : segments ≠ []) :
    UrlParts.parse (addressOf scheme authority segments) =
      .ok { scheme, authority, path := rootedPath segments } := by
  have hrooted : ∀ s ∈ [] :: segments, ∀ c ∈ s, isNameChar c = true := by
    simpa using hsegments
  have hplain : ∀ c ∈ authority, UrlParts.endsAuthority c = false ∧ c ≠ '[' ∧ c ≠ ']' ∧
      UrlParts.isDropped c = false := fun c hc => by
    have := hauthority.plain c hc
    simp only [Bool.or_eq_false_iff] at this
    simp_all [UrlParts.endsAuthority]
  have hclean : UrlParts.cleaned (addressOf scheme authority segments) =
      addressOf scheme authority segments := by
    refine UrlParts.cleaned_eq_self ?_ fun c hc => ?_
    · rcases hscheme with rfl | rfl <;> exact Text.clear_cons.2 rfl
    · rcases List.mem_append.1 hc with hc | hc
      · have hletters : ∀ c ∈ scheme, UrlParts.isDropped c = false := by
          rcases hscheme with rfl | rfl <;> decide
        exact hletters c hc
      · simp only [List.mem_cons, List.mem_append] at hc
        rcases hc with rfl | rfl | rfl | hc | hc
        · rfl
        · rfl
        · rfl
        · exact (hplain c hc).2.2.2
        · exact isDropped_of_mem_joinWith hrooted hc
  have hcut : UrlParts.cutScheme? (addressOf scheme authority segments) =
      some (scheme, '/' :: '/' :: (authority ++ rootedPath segments)) := by
    rcases hscheme with rfl | rfl <;> rfl
  refine UrlParts.parse_eq_ok (by rw [hclean, hcut]; rfl)
    (UrlParts.splitAuthority_slashed (fun c hc => (hplain c hc).1) ?_)
    (UrlParts.splitTail_of_notMem (notMem_joinWith hrooted (by decide) rfl)
      (notMem_joinWith hrooted (by decide) rfl))
    (UrlParts.checkBrackets_of_notMem (fun hm => (hplain _ hm).2.1 rfl)
      fun hm => (hplain _ hm).2.2.1 rfl) ?_
  · rw [rootedPath_eq hne]
    exact Text.clear_cons.2 rfl
  · refine List.any_eq_false.2 fun c hc hhides => ?_
    have hascii := hauthority.ascii c hc
    simp [UrlParts.hidesDelimiter] at hhides
    omega

/-- A reference without a scheme and an authority is a path. -/
theorem parse_path {path : Text} (hfront : Text.Clear UrlParts.isControlOrSpace path)
    (hdropped : ∀ c ∈ path, UrlParts.isDropped c = false) (hslashed : startsSlashed path = false)
    (hcolon : ':' ∉ path) (hquery : '?' ∉ path) (hfragment : '#' ∉ path) (scheme : Text) :
    UrlParts.parse path scheme = .ok { scheme, path } := by
  refine UrlParts.parse_eq_ok ?_ (UrlParts.splitAuthority_of_not_slashed hslashed)
    (UrlParts.splitTail_of_notMem hfragment hquery) rfl rfl
  rw [UrlParts.cleaned_eq_self hfront hdropped, UrlParts.cutScheme?_of_notMem hcolon]
  rfl

variable {folders down : List Text} {file name : Text}

/-- A path reference whose walk leads to `n` of the folders, the root among them, and to names. -/
theorem resolveReference_path {path : Text} {n : Nat}
    (hscheme : UrlParts.IsWebScheme scheme)
    (hauthority : PlainAuthority authority) (hfolders : ∀ s ∈ folders, PathName s)
    (hfile : PathName file) (hfront : Text.Clear UrlParts.isControlOrSpace path)
    (hpath : ∀ c ∈ path, c = '/' ∨ isNameChar c = true) (hslashed : startsSlashed path = false)
    (hne : path ≠ []) (hnames : ∀ s ∈ names, PathName s) (hnamed : names ≠ [])
    (hmerged : UrlParts.mergePath (rootedPath (folders ++ [file])) path =
      Text.joinWith ['/'] (([] :: folders).take n ++ names)) :
    resolveReference path (addressOf scheme authority (folders ++ [file])) =
      .ok (addressOf scheme authority (folders.take (n - 1) ++ names)) := by
  have hchars : ∀ c ∈ path, c ≠ ':' ∧ c ≠ '?' ∧ c ≠ '#' ∧ c ≠ ';' ∧ UrlParts.isDropped c = false := by
    intro c hc
    rcases hpath c hc with rfl | hname
    · decide
    · obtain ⟨-, hquery, hfragment, hsemicolon, hcolon, hdropped⟩ := isNameChar_iff.1 hname
      exact ⟨hcolon, hquery, hfragment, hsemicolon, hdropped⟩
  have hbase := fun s hs => (forall_mem_concat hfolders hfile s hs).plain
  have hrooted : ∀ s ∈ [] :: (folders ++ [file]), ∀ c ∈ s, isNameChar c = true := by
    simpa using hbase
  obtain ⟨hfull, hwritten⟩ := UrlParts.rooted_joinWith_take n
    (fun s hs => ⟨(hnames s hs).ne_nil, (hnames s hs).plain⟩) hnamed _ hmerged
  have hcolon : ':' ∉ path := fun hm => (hchars _ hm).1 rfl
  rw [resolveReference, isAbsolute_of_notMem hcolon, if_neg (by simp),
    UrlParts.join_path hscheme (parse_addressOf hscheme hauthority hbase (by simp))
      (parse_path hfront (fun c hc => (hchars c hc).2.2.2.2) hslashed hcolon
        (fun hm => (hchars _ hm).2.1 rfl) (fun hm => (hchars _ hm).2.2.1 rfl) scheme)
      hauthority.ne_nil hne hfull (notMem_joinWith hrooted (by decide) rfl)
      fun hm => (hchars _ hm).2.2.2.1 rfl,
    hwritten]
  rfl

/-- A reference of steps and names leads to the folders of the address that are left after the steps
up, followed by its names, and a reference from the root to its names alone. Only a walk that starts
with a name can have a character at its front that does not count. -/
theorem resolveReference_traverses
    (hscheme : UrlParts.IsWebScheme scheme)
    (hauthority : PlainAuthority authority) (hfolders : ∀ s ∈ folders, PathName s)
    (hfile : PathName file) (hdown : ∀ s ∈ down, PathName s) (hname : PathName name) (j k : Nat) :
    (Text.Clear UrlParts.isControlOrSpace (Text.joinWith ['/'] (walkOf j k (down ++ [name]))) →
      resolveReference (Text.joinWith ['/'] (walkOf j k (down ++ [name])))
          (addressOf scheme authority (folders ++ [file])) =
        .ok (addressOf scheme authority (folders.take (folders.length - k) ++ (down ++ [name])))) ∧
    resolveReference (rootedPath (down ++ [name]))
        (addressOf scheme authority (folders ++ [file])) =
      .ok (addressOf scheme authority (down ++ [name])) := by
  have hnames := forall_mem_concat hdown hname
  have hplain := fun s hs => And.intro (hnames s hs).ne_nil (hnames s hs).plain
  have hsegments := fun s hs => UrlParts.segment_of_mem_walkOf (s := s) (j := j) (k := k) hnames hs
  constructor
  · intro hfront
    have hlength : folders.length + 1 - k - 1 = folders.length - k := by omega
    rw [← hlength]
    refine resolveReference_path hscheme hauthority hfolders hfile hfront (fun c hc =>
        (Text.mem_joinWith hc).imp_right fun ⟨s, hs, hm⟩ => (hsegments s hs).2 c hm)
      (Bool.eq_false_iff.2 fun hslashed => ?_)
      (UrlParts.joinWith_ne_nil (by simp [walkOf]) hsegments) hnames (by simp)
      (UrlParts.mergePath_walkOf hfolders hfile hdown hname)
    obtain ⟨rest, hrest⟩ := startsSlashed_iff.1 hslashed
    exact UrlParts.head?_joinWith_ne hsegments (by rw [hrest]; rfl)
  · have hrooted : rootedPath (down ++ [name]) = '/' :: Text.joinWith ['/'] (down ++ [name]) :=
      rootedPath_eq (by simp)
    have hslashed : startsSlashed (rootedPath (down ++ [name])) = false := by
      refine Bool.eq_false_iff.2 fun hslashed => ?_
      obtain ⟨rest, hrest⟩ := startsSlashed_iff.1 hslashed
      rw [hrooted, List.cons_eq_cons] at hrest
      exact UrlParts.head?_joinWith_ne hplain (by rw [hrest.2]; rfl)
    refine resolveReference_path (n := 1) hscheme hauthority hfolders hfile ?_ (fun c hc => ?_)
      hslashed (by simp [hrooted]) hnames (by simp) ?_
    · rw [hrooted]
      exact Text.clear_cons.2 rfl
    · refine (Text.mem_joinWith hc).imp_right fun ⟨s, hs, hm⟩ => ?_
      rcases List.mem_cons.1 hs with rfl | hs
      · cases hm
      · exact (hnames s hs).plain c hm
    · exact UrlParts.mergePath_rooted _ hdown hname

/-- Three steps up from two folders end at the root. -/
theorem resolveReference_traverses_above_root :
    PlainAuthority "u@h:81".toList ∧ (∀ s ∈ ["a".toList, "b c".toList], PathName s) ∧
      PathName "f.css".toList ∧ (∀ s ∈ ["...".toList], PathName s) ∧ PathName " x".toList ∧
      Text.Clear UrlParts.isControlOrSpace "./../../../.../ x".toList ∧
      resolveReference "./../../../.../ x".toList "https://u@h:81/a/b c/f.css".toList =
        .ok "https://u@h:81/.../ x".toList ∧
      resolveReference "/.../ x".toList "https://u@h:81/a/b c/f.css".toList =
        .ok "https://u@h:81/.../ x".toList := by
  have hauthority : PlainAuthority "u@h:81".toList := by decide
  have hfolders : ∀ s ∈ ["a".toList, "b c".toList], PathName s := by decide
  have hfile : PathName "f.css".toList := by decide
  have hdown : ∀ s ∈ ["...".toList], PathName s := by decide
  have hname : PathName " x".toList := by decide
  have hfront : Text.Clear UrlParts.isControlOrSpace "./../../../.../ x".toList := by decide
  obtain ⟨hwalk, hrooted⟩ :=
    resolveReference_traverses (.inr rfl) hauthority hfolders hfile hdown hname 1 3
  exact ⟨hauthority, hfolders, hfile, hdown, hname, hfront, hwalk hfront, hrooted⟩

/-- A space at the front of a reference is dropped, also where it belongs to a name. -/
theorem leading_space_dropped :
    PlainAuthority "h".toList ∧ PathName "f".toList ∧ PathName " a".toList ∧
      Text.joinWith ['/'] (walkOf 0 0 [" a".toList]) = " a".toList ∧
      addressOf "http".toList "h".toList ["f".toList] = "http://h/f".toList ∧
      resolveReference " a".toList "http://h/f".toList = .ok "http://h/a".toList ∧
      addressOf "http".toList "h".toList [" a".toList] = "http://h/ a".toList := by
  decide

end StyleSplice
