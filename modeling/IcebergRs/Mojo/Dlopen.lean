import IcebergRs.Support.Trace
import IcebergRs.Support.Utf8
import Mathlib.Data.List.DropRight

/-! The search for the shared library. A path is a text, and what the environment, the file
system and the dynamic linker answer is given. -/
namespace IcebergRs.Mojo

/-- `nsGetExecutablePath` is the buffer that `_NSGetExecutablePath` fills on macOS, if it can. -/
structure Env (Library : Type) where
  condaPrefix : String
  isMacos : Bool
  nsGetExecutablePath : Option String
  realpath : String → Except String String
  pathExists : String → Bool
  defaultRtld : ℤ
  dlopen : String → ℤ → Except String Library

/-- `path.startswith("/")`. -/
def absolute (path : String) : Bool := path.toList.head? == some '/'

/-- `os.path.dirname`: the part before the last slash, which stays only where it is the root. -/
def dirname (path : String) : String :=
  let head := path.toList.rdropWhile (· ≠ '/')
  String.ofList (if head.all (· = '/') then head else head.rdropWhile (· = '/'))

/-- `_join`. -/
def join (dir file : String) : String := dir ++ "/" ++ file

section
variable {Library : Type} (env : Env Library)

/-- The directory of a path with its links resolved; an error is caught. -/
def realDirname (path : String) : String :=
  match env.realpath path with
  | .ok real => dirname real
  | .error _ => ""

def executableDir : String :=
  if env.isMacos then
    match env.nsGetExecutablePath with
    | some buf => realDirname env (uptoNul buf)
    | none => ""
  else realDirname env "/proc/self/exe"

def libraryCandidates (file : String) : List String :=
  let exe := executableDir env
  (if absolute env.condaPrefix then [join (join env.condaPrefix "lib") file] else []) ++
    (if absolute exe then [join exe file, join (join (dirname exe) "lib") file] else []) ++ [file]

def findLibrary (file : String) : String :=
  match (libraryCandidates env file).find? fun path => absolute path && env.pathExists path with
  | some path => path
  | none => file

/-- What a path adds to the list of places when it is not there, and when it does not load. -/
def missing (path : String) : String := "\n  " ++ path ++ " (no such file)"

def unloadable (path : String) : String :=
  if absolute path then "\n  " ++ path ++ " (dlopen failed)"
  else "\n  " ++ path ++ " on the dynamic linker's search path (the build environment's lib via " ++
    "rpath, LD_LIBRARY_PATH / DYLD_LIBRARY_PATH, system directories)"

/-- The loop of `open_library`, with the places tried so far and the last error. -/
def openFirst (flags : ℤ) : List String → String → String → Except (String × String) Library
  | [], tried, last => .error (tried, last)
  | path :: paths, tried, last =>
    if absolute path && !env.pathExists path then openFirst flags paths (tried ++ missing path) last
    else
      match env.dlopen path flags with
      | .ok library => .ok library
      | .error e => openFirst flags paths (tried ++ unloadable path) e

def openLibrary (tin file : String) (flags : ℤ) : Except String Library :=
  match openFirst env flags (libraryCandidates env file) "" "" with
  | .ok library => .ok library
  | .error (tried, last) =>
    let unset := if absolute env.condaPrefix then "" else "\nCONDA_PREFIX is not set."
    let help := "\nSet CONDA_PREFIX to the pixi or conda environment that has lib/" ++ file ++
      " (or run the program with `pixi run`), or put " ++ file ++ " next to the executable."
    let error := if last = "" then "" else "\nLast dlopen error: " ++ last
    .error (tin ++ ": cannot load " ++ file ++ "; looked in:" ++ tried ++ unset ++ help ++ error)

/-- A path that is tried with success. An absolute one is only tried if it is there. -/
def Opens (flags : ℤ) (path : String) (library : Library) : Prop :=
  (absolute path → env.pathExists path) ∧ env.dlopen path flags = .ok library

/-- What the error says about a path that did not open. -/
def place (path : String) : String :=
  if absolute path && !env.pathExists path then missing path else unloadable path

variable {env} {flags : ℤ} {paths : List String} {path tried last : String} {library : Library}

theorem openFirst_missing (h : (absolute path && !env.pathExists path) = true) :
    openFirst env flags (path :: paths) tried last =
      openFirst env flags paths (tried ++ place env path) last := by
  rw [openFirst, if_pos h, place, if_pos h]

theorem openFirst_unloadable {e : String} (h : (absolute path && !env.pathExists path) = false)
    (he : env.dlopen path flags = .error e) : openFirst env flags (path :: paths) tried last =
      openFirst env flags paths (tried ++ place env path) e := by
  rw [openFirst, if_neg (by simp [h]), place, if_neg (by simp [h]), he]

theorem openFirst_opens (h : Opens env flags path library) :
    openFirst env flags (path :: paths) tried last = .ok library := by
  have hthere : (absolute path && !env.pathExists path) = false := by
    have := h.1
    cases ha : absolute path <;> simp_all
  rw [openFirst, if_neg (by simp [hthere]), h.2]

/-- A path opens or is passed over, and then the loop goes on behind it. -/
theorem openFirst_cons (env : Env Library) (flags : ℤ) (path : String) :
    (∃ library, Opens env flags path library) ∨
    (∀ library, ¬ Opens env flags path library) ∧ ∀ last, ∃ last', ∀ paths tried,
      openFirst env flags (path :: paths) tried last =
        openFirst env flags paths (tried ++ place env path) last' := by
  by_cases h : (absolute path && !env.pathExists path) = true
  · refine .inr ⟨fun library hopen => ?_, fun last => ⟨last, fun _ _ => openFirst_missing h⟩⟩
    have := hopen.1
    simp_all
  · rw [Bool.not_eq_true] at h
    cases he : env.dlopen path flags with
    | ok library =>
      refine .inl ⟨library, fun ha => ?_, he⟩
      simpa [ha] using h
    | error e =>
      refine .inr ⟨fun library hopen => ?_, fun last => ⟨e, fun _ _ => openFirst_unloadable h he⟩⟩
      exact absurd (hopen.2.symm.trans he) (by simp)

/-- The loop opens the first path that opens. -/
theorem openFirst_eq_ok : openFirst env flags paths tried last = .ok library ↔
    ∃ pre path post, paths = pre ++ path :: post ∧ Opens env flags path library ∧
      ∀ q ∈ pre, ∀ other, ¬ Opens env flags q other := by
  induction paths generalizing tried last with
  | nil => simp [openFirst]
  | cons p paths ih =>
    rcases openFirst_cons env flags p with ⟨other, hp⟩ | ⟨hp, hnext⟩
    · rw [openFirst_opens hp]
      constructor
      · intro h
        obtain rfl := Except.ok.inj h
        exact ⟨[], p, paths, rfl, hp, by simp⟩
      · rintro ⟨pre, path, post, heq, hopen, hpre⟩
        cases pre with
        | nil =>
          obtain ⟨rfl, rfl⟩ := List.cons.inj heq
          exact congrArg Except.ok (Except.ok.inj (hp.2.symm.trans hopen.2))
        | cons q pre =>
          obtain ⟨rfl, rfl⟩ := List.cons.inj heq
          exact absurd hp (hpre p List.mem_cons_self other)
    · obtain ⟨last', hlast⟩ := hnext last
      rw [hlast, ih]
      constructor
      · rintro ⟨pre, path, post, rfl, hopen, hpre⟩
        refine ⟨p :: pre, path, post, rfl, hopen, fun q hq => ?_⟩
        rcases List.mem_cons.mp hq with rfl | hq
        · exact hp
        · exact hpre q hq
      · rintro ⟨pre, path, post, heq, hopen, hpre⟩
        cases pre with
        | nil =>
          obtain ⟨rfl, rfl⟩ := List.cons.inj heq
          exact absurd hopen (hp library)
        | cons q pre =>
          obtain ⟨rfl, rfl⟩ := List.cons.inj heq
          exact ⟨pre, path, post, rfl, hopen, fun r hr => hpre r (List.mem_cons_of_mem _ hr)⟩

theorem openFirst_some (tried last : String) (h : ∃ q ∈ paths, ∃ other, Opens env flags q other) :
    ∃ library, openFirst env flags paths tried last = .ok library := by
  induction paths generalizing tried last with
  | nil => simp at h
  | cons p paths ih =>
    rcases openFirst_cons env flags p with ⟨other, hp⟩ | ⟨hp, hnext⟩
    · exact ⟨other, openFirst_opens hp⟩
    · obtain ⟨last', hlast⟩ := hnext last
      rw [hlast]
      obtain ⟨q, hq, other, hopen⟩ := h
      rcases List.mem_cons.mp hq with rfl | hq
      · exact absurd hopen (hp other)
      · exact ih _ _ ⟨q, hq, other, hopen⟩

/-- Where one of the first paths opens, the loop does not come to the rest. -/
theorem openFirst_append (tried last : String) (h : ∃ q ∈ paths, ∃ other, Opens env flags q other)
    (rest : List String) :
    openFirst env flags (paths ++ rest) tried last = openFirst env flags paths tried last := by
  induction paths generalizing tried last with
  | nil => simp at h
  | cons p paths ih =>
    rcases openFirst_cons env flags p with ⟨other, hp⟩ | ⟨hp, hnext⟩
    · rw [List.cons_append, openFirst_opens hp, openFirst_opens hp]
    · obtain ⟨q, hq, other, hopen⟩ := h
      have hq : q ∈ paths := by
        refine (List.mem_cons.mp hq).resolve_left fun hqp => ?_
        exact hp other (hqp ▸ hopen)
      obtain ⟨last', hlast⟩ := hnext last
      rw [List.cons_append, hlast, hlast]
      exact ih _ _ ⟨q, hq, other, hopen⟩

/-- Without success the loop has been everywhere, and the last error is that of the bare name. -/
theorem openFirst_failed (tried last : String) {file e : String} (hfile : absolute file = false)
    (he : env.dlopen file flags = .error e)
    (hnone : ∀ q ∈ paths, ∀ other, ¬ Opens env flags q other) :
    openFirst env flags (paths ++ [file]) tried last =
      .error (tried ++ String.join ((paths ++ [file]).map (place env)), e) := by
  induction paths generalizing tried last with
  | nil =>
    rw [List.nil_append, openFirst_unloadable (by simp [hfile]) he, openFirst, List.map_singleton,
      String.join_cons, String.join_nil, String.append_empty]
  | cons p paths ih =>
    rcases openFirst_cons env flags p with ⟨other, hp⟩ | ⟨-, hnext⟩
    · exact absurd hp (hnone p List.mem_cons_self other)
    · obtain ⟨last', hlast⟩ := hnext last
      rw [List.cons_append, hlast, ih _ _ fun q hq => hnone q (List.mem_cons_of_mem _ hq),
        List.map_cons, String.join_cons, String.append_assoc]

variable (env) in
/-- The text of the error when nothing opens; `e` is what the linker said to the bare name. -/
def refusal (tin file e : String) : String :=
  let unset := if absolute env.condaPrefix then "" else "\nCONDA_PREFIX is not set."
  let help := "\nSet CONDA_PREFIX to the pixi or conda environment that has lib/" ++ file ++
    " (or run the program with `pixi run`), or put " ++ file ++ " next to the executable."
  let error := if e = "" then "" else "\nLast dlopen error: " ++ e
  tin ++ ": cannot load " ++ file ++ "; looked in:" ++
    String.join ((libraryCandidates env file).map (place env)) ++ unset ++ help ++ error

theorem openLibrary_eq_ok {tin file : String} : openLibrary env tin file flags = .ok library ↔
    openFirst env flags (libraryCandidates env file) "" "" = .ok library := by
  unfold openLibrary
  cases openFirst env flags (libraryCandidates env file) "" "" <;> simp

theorem openLibrary_failed (tin : String) {file e : String} (hfile : absolute file = false)
    (he : env.dlopen file flags = .error e)
    (hnone : ∀ q ∈ libraryCandidates env file, ∀ other, ¬ Opens env flags q other) :
    openLibrary env tin file flags = .error (refusal env tin file e) := by
  have hlast := openFirst_failed "" "" hfile he fun q hq other =>
    hnone q (List.mem_append_left _ hq) other
  rw [openLibrary, libraryCandidates, hlast]
  simp only [String.empty_append, refusal, libraryCandidates]

/-- `open_library` opens the first candidate that opens. If none does, the error lists all of
them in order, with what is wrong with each and what the linker said last. -/
theorem open_library_search (tin : String) {file : String} (hfile : absolute file = false) :
    (∀ library, openLibrary env tin file flags = .ok library ↔
      ∃ pre path post, libraryCandidates env file = pre ++ path :: post ∧
        Opens env flags path library ∧ ∀ q ∈ pre, ∀ other, ¬ Opens env flags q other) ∧
    ∀ m, openLibrary env tin file flags = .error m ↔
      ∃ e, env.dlopen file flags = .error e ∧ m = refusal env tin file e ∧
        ∀ q ∈ libraryCandidates env file, ∀ other, ¬ Opens env flags q other := by
  refine ⟨fun library => openLibrary_eq_ok.trans openFirst_eq_ok, fun m => ⟨fun hm => ?_, ?_⟩⟩
  · have hnone : ∀ q ∈ libraryCandidates env file, ∀ other, ¬ Opens env flags q other := by
      intro q hq other hopen
      obtain ⟨library, hl⟩ := openFirst_some "" "" ⟨q, hq, other, hopen⟩
      exact absurd ((openLibrary_eq_ok.mpr hl).symm.trans hm) (by simp)
    cases he : env.dlopen file flags with
    | ok library =>
      have hopen : Opens env flags file library := ⟨by simp [hfile], he⟩
      exact absurd hopen (hnone file (List.mem_append_right _ List.mem_cons_self) library)
    | error e =>
      have hfailed := hm.symm.trans (openLibrary_failed tin hfile he hnone)
      exact ⟨e, rfl, Except.error.inj hfailed, hnone⟩
  · rintro ⟨e, he, rfl, hnone⟩
    exact openLibrary_failed tin hfile he hnone

/-- An executable `/app/bin/run` with the library in `/app/lib`. -/
def Env.installed : Env Unit where
  condaPrefix := ""
  isMacos := false
  nsGetExecutablePath := none
  realpath _ := .ok "/app/bin/run"
  pathExists path := path = "/app/lib/x.so"
  defaultRtld := 258
  dlopen path _ := if path = "/app/lib/x.so" then .ok () else .error "not found"

theorem installed_candidates : libraryCandidates .installed "x.so" =
    ["/app/bin/x.so", "/app/lib/x.so", "x.so"] := by decide

theorem open_library_search_installed :
    openLibrary .installed "t" "x.so" 2 = .ok () ∧
      openLibrary .installed "t" "y.so" 2 = .error (refusal .installed "t" "y.so" "not found") := by
  refine ⟨((open_library_search "t" (show absolute "x.so" = false by decide)).1 ()).mpr
    ⟨["/app/bin/x.so"], "/app/lib/x.so", ["x.so"], installed_candidates,
      ⟨fun _ => by decide, rfl⟩, ?_⟩, ?_⟩
  · rintro q hq other ⟨hthere, -⟩
    obtain rfl := List.mem_singleton.mp hq
    exact absurd (hthere (by decide)) (by decide)
  · refine ((open_library_search "t" (show absolute "y.so" = false by decide)).2 _).mpr
      ⟨"not found", rfl, rfl, ?_⟩
    have hcand : libraryCandidates .installed "y.so" =
        ["/app/bin/y.so", "/app/lib/y.so", "y.so"] := by decide
    rw [hcand]
    rintro q hq other ⟨-, hload⟩
    simp only [List.mem_cons, List.not_mem_nil, or_false] at hq
    rcases hq with rfl | rfl | rfl <;> cases hload

theorem absolute_join {dir file : String} (h : absolute dir) : absolute (join dir file) := by
  unfold absolute join at *
  rw [String.toList_append, String.toList_append, List.append_assoc]
  cases hdir : dir.toList with
  | nil => simp [hdir] at h
  | cons c cs => simpa [hdir] using h

/-- The directory of an absolute path is absolute. -/
theorem absolute_dirname {path : String} (h : absolute path) : absolute (dirname path) := by
  have keep (l : List Char) (p : Char → Bool) (hl : l.head? = some '/')
      (hne : l.rdropWhile p ≠ []) : (l.rdropWhile p).head? = some '/' := by
    obtain ⟨suffix, hs⟩ := List.rdropWhile_prefix p l
    obtain ⟨c, cs, hc⟩ := List.exists_cons_of_ne_nil hne
    rw [← hs, hc] at hl
    rw [hc]
    simpa using hl
  have hpath : path.toList.head? = some '/' := by simpa [absolute] using h
  have hhead : (path.toList.rdropWhile (· ≠ '/')).head? = some '/' := by
    refine keep _ _ hpath fun hnil => ?_
    have hall := List.rdropWhile_eq_nil_iff.mp hnil '/' (List.mem_of_mem_head? hpath)
    simp at hall
  unfold dirname absolute
  rw [String.toList_ofList, beq_iff_eq]
  split
  · exact hhead
  next hall =>
    refine keep _ _ hhead fun hnil => hall ?_
    exact List.all_eq_true.mpr (List.rdropWhile_eq_nil_iff.mp hnil)

/-- All candidates but the bare name at the end are absolute paths. -/
theorem libraryCandidates_absolute (env : Env Library) (file : String) :
    ∃ paths, libraryCandidates env file = paths ++ [file] ∧ ∀ path ∈ paths, absolute path := by
  refine ⟨_, rfl, fun path hpath => ?_⟩
  rcases List.mem_append.mp hpath with hpath | hpath
  · split at hpath
    next hconda =>
      rw [List.mem_singleton.mp hpath]
      exact absolute_join (absolute_join hconda)
    next => cases hpath
  · split at hpath
    next hexe =>
      simp only [List.mem_cons, List.not_mem_nil, or_false] at hpath
      rcases hpath with rfl | rfl
      · exact absolute_join hexe
      · exact absolute_join (absolute_join (absolute_dirname hexe))
    next => cases hpath

/-- A process in another working directory: the file system and the linker may give other answers
for relative paths, which they look up there. -/
structure Env.Elsewhere (env env' : Env Library) : Prop where
  condaPrefix : env'.condaPrefix = env.condaPrefix
  isMacos : env'.isMacos = env.isMacos
  nsGetExecutablePath : env'.nsGetExecutablePath = env.nsGetExecutablePath
  realpath : ∀ path, absolute path → env'.realpath path = env.realpath path
  pathExists : ∀ path, absolute path → env'.pathExists path = env.pathExists path
  dlopen : ∀ path flags, absolute path → env'.dlopen path flags = env.dlopen path flags

variable (env) in
/-- The path by which the executable was started, as macOS gives it, does not depend on the working
directory. Linux asks for `/proc/self/exe` instead. -/
def Env.Anchored : Prop :=
  env.isMacos → ∀ buf ∈ env.nsGetExecutablePath, absolute (uptoNul buf)

theorem Env.Elsewhere.candidates {env' : Env Library} (h : env.Elsewhere env')
    (hexe : env.Anchored) (file : String) :
    libraryCandidates env' file = libraryCandidates env file := by
  have hreal : ∀ path, absolute path → realDirname env' path = realDirname env path := by
    intro path hpath
    rw [realDirname, realDirname, h.realpath path hpath]
  have hdir : executableDir env' = executableDir env := by
    unfold executableDir
    rw [h.isMacos, h.nsGetExecutablePath]
    split
    next hmac =>
      cases hbuf : env.nsGetExecutablePath with
      | none => rfl
      | some buf => exact hreal _ (hexe hmac buf hbuf)
    next => exact hreal _ (by decide)
  simp only [libraryCandidates, h.condaPrefix, hdir]

/-- The loop makes the same steps as long as it is at absolute paths, and after them if the linker
gives the same answer to the rest. -/
theorem Env.Elsewhere.openFirst {env' : Env Library} (h : env.Elsewhere env')
    (hpaths : ∀ path ∈ paths, absolute path ∨ env'.dlopen path flags = env.dlopen path flags) :
    Mojo.openFirst env' flags paths tried last = Mojo.openFirst env flags paths tried last := by
  induction paths generalizing tried last with
  | nil => rfl
  | cons p paths ih =>
    have hthere : (absolute p && !env'.pathExists p) = (absolute p && !env.pathExists p) := by
      cases ha : absolute p with
      | false => rfl
      | true => rw [h.pathExists p ha]
    have hload : env'.dlopen p flags = env.dlopen p flags :=
      (hpaths p List.mem_cons_self).elim (h.dlopen p flags) id
    have hnext : ∀ tried last, Mojo.openFirst env' flags paths tried last =
        Mojo.openFirst env flags paths tried last :=
      fun _ _ => ih fun path hpath => hpaths path (List.mem_cons_of_mem _ hpath)
    simp only [Mojo.openFirst, hthere, hnext, hload]

theorem Env.Elsewhere.opens {env' : Env Library} (h : env.Elsewhere env') (hpath : absolute path) :
    Opens env' flags path library ↔ Opens env flags path library := by
  rw [Opens, Opens, h.pathExists path hpath, h.dlopen path flags hpath]

/-- What the search does by itself does not depend on the working directory: it has the same
candidates and finds the same path, and where an absolute candidate opens it opens the same library.
Only for the bare name at the end does it depend on what the dynamic linker answers there. -/
theorem library_search_elsewhere {env' : Env Library} (h : env.Elsewhere env')
    (hexe : env.Anchored) (tin file : String) :
    libraryCandidates env' file = libraryCandidates env file ∧
      findLibrary env' file = findLibrary env file ∧
      ((∃ path ∈ libraryCandidates env file, absolute path ∧
          ∃ library, Opens env flags path library) ∨
        env'.dlopen file flags = env.dlopen file flags →
        openLibrary env' tin file flags = openLibrary env tin file flags) := by
  have hcand := h.candidates hexe file
  obtain ⟨paths, hpaths, habs⟩ := libraryCandidates_absolute env file
  refine ⟨hcand, ?_, fun hor => ?_⟩
  · have hfind : (fun path => absolute path && env'.pathExists path) =
        fun path => absolute path && env.pathExists path := by
      funext path
      cases ha : absolute path with
      | false => rfl
      | true => rw [h.pathExists path ha]
    rw [findLibrary, hcand, hfind, findLibrary]
  · suffices hfirst : openFirst env' flags (libraryCandidates env file) "" "" =
        openFirst env flags (libraryCandidates env file) "" "" by
      simp only [openLibrary, hcand, hfirst, h.condaPrefix]
    have hbare (hfile : env'.dlopen file flags = env.dlopen file flags) :
        openFirst env' flags (libraryCandidates env file) "" "" =
          openFirst env flags (libraryCandidates env file) "" "" := by
      refine h.openFirst fun path hpath => ?_
      rw [hpaths, List.mem_append, List.mem_singleton] at hpath
      rcases hpath with hpath | rfl
      · exact .inl (habs path hpath)
      · exact .inr hfile
    rcases hor with ⟨path, hpath, ha, library, hopen⟩ | hfile
    · rw [hpaths, List.mem_append, List.mem_singleton] at hpath
      rcases hpath with hpath | rfl
      · -- the loop ends before it comes to the bare name
        rw [hpaths, openFirst_append _ _ ⟨path, hpath, library, (h.opens ha).mpr hopen⟩,
          openFirst_append _ _ ⟨path, hpath, library, hopen⟩]
        exact h.openFirst fun q hq => .inl (habs q hq)
      · exact hbare (h.dlopen path flags ha)
    · exact hbare hfile

/-- The same process in a directory that has a file of the name, and where the linker looks. -/
def Env.besides : Env Unit where
  condaPrefix := ""
  isMacos := false
  nsGetExecutablePath := none
  realpath path := .ok (if absolute path then "/app/bin/run" else "/tmp/run")
  pathExists path := path = "x.so" || path = "/app/lib/x.so"
  defaultRtld := 258
  dlopen path _ := if path = "x.so" || path = "/app/lib/x.so" then .ok () else .error "not found"

theorem library_search_elsewhere_besides :
    libraryCandidates .besides "x.so" = libraryCandidates .installed "x.so" ∧
      findLibrary .besides "x.so" = findLibrary .installed "x.so" ∧
      openLibrary .besides "t" "x.so" 2 = openLibrary .installed "t" "x.so" 2 := by
  have hne {path : String} (hpath : absolute path) : path ≠ "x.so" := by
    rintro rfl
    revert hpath
    decide
  have helse : Env.installed.Elsewhere .besides := ⟨rfl, rfl, rfl,
    fun path hpath => by simp [Env.besides, Env.installed, hpath],
    fun path hpath => by simp [Env.besides, Env.installed, hne hpath],
    fun path _ hpath => by simp [Env.besides, Env.installed, hne hpath]⟩
  obtain ⟨hcand, hfind, hopen⟩ := library_search_elsewhere helse nofun "t" "x.so"
  exact ⟨hcand, hfind, hopen (.inl ⟨"/app/lib/x.so", by simp [installed_candidates], by decide,
    (), fun _ => by decide, rfl⟩)⟩

/-- Where the path that `find_library` gives can be opened, `open_library` opens the same. -/
theorem find_library_opens (tin : String) {file : String} (hfile : absolute file = false)
    (h : env.dlopen (findLibrary env file) flags = .ok library) :
    openLibrary env tin file flags = .ok library := by
  obtain ⟨paths, hcand, habs⟩ := libraryCandidates_absolute env file
  have hclosed : ∀ q, absolute q → (absolute q && env.pathExists q) = false →
      ∀ other, ¬ Opens env flags q other := by
    intro q hq hgone other hopen
    simp [hq, hopen.1 hq] at hgone
  refine openLibrary_eq_ok.mpr (openFirst_eq_ok.mpr ?_)
  unfold findLibrary at h
  split at h
  next path hfind =>
    obtain ⟨hpath, pre, post, heq, hpre⟩ := List.find?_eq_some_iff_append.mp hfind
    obtain ⟨habsolute, hthere⟩ := Bool.and_eq_true_iff.mp hpath
    have hpaths : ∀ q ∈ pre, absolute q := by
      intro q hq
      rcases snoc_eq_append_cons (hcand.symm.trans heq) with ⟨-, rfl, -⟩ | ⟨post', -, rfl⟩
      · simp [hfile] at habsolute
      · exact habs q (List.mem_append_left _ hq)
    exact ⟨pre, path, post, heq, ⟨fun _ => hthere, h⟩, fun q hq =>
      hclosed q (hpaths q hq) ((Bool.not_eq_true' _).mp (hpre q hq))⟩
  next hfind =>
    refine ⟨paths, file, [], hcand, ⟨by simp [hfile], h⟩, fun q hq => hclosed q (habs q hq) ?_⟩
    have hnot := List.find?_eq_none.mp hfind q (hcand ▸ List.mem_append_left _ hq)
    exact Bool.not_eq_true _ ▸ hnot

theorem find_library_opens_installed :
    findLibrary .installed "x.so" = "/app/lib/x.so" ∧
      openLibrary .installed "t" "x.so" 2 = .ok () :=
  ⟨by decide, find_library_opens "t" (by decide) rfl⟩

end
end IcebergRs.Mojo
