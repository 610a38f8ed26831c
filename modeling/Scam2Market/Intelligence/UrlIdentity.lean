import Scam2Market.Intelligence.ThreatPrefilter

/-!
# Which service a URL names

`_url` brings a URL into a normal form.  What counts of a URL is its scheme, its host in IDNA form, the port,
its path and its query; the port is that of the scheme if none is written.

* `targetOf`: what a URL names.
* `urlOf_eq_target`: the normal form is the text of what the URL names.  The text leaves out a port 0, 80 or
  443, whatever the scheme is.
* `targetOf_text`: so a normal form names the port of its scheme in place of these (`folded`).
* `soundNormalForm_iff`: two URLs with one normal form name one service, apart from these ports.
* `wrong_service`: the two default ports.
-/

namespace Scam2Market
namespace Intelligence

open StandardLibrary (pathText portChars portText queryText urlOf_eq)

structure UrlTarget where
  scheme : String
  host : String
  port : ℕ
  path : String
  query : String
  deriving DecidableEq

/-- The port of a scheme. -/
def defaultPort (scheme : String) : ℕ :=
  if scheme = "https" then 443 else 80

/-- What a URL names, if `_url` accepts it. -/
def targetOf (tools : TextTools) (raw : String) : Option UrlTarget :=
  (tools.urlsplit raw).bind fun parts =>
    if parts.scheme ≠ "http" ∧ parts.scheme ≠ "https" then none
    else parts.hostname.bind fun hostname =>
      if hostname = "" then none
      else (domainOf tools hostname).map fun host =>
        { scheme := parts.scheme
          host := host
          port := parts.port.getD (defaultPort parts.scheme)
          path := pathText parts.path
          query := parts.query }

/-- The ports that a normal form leaves out. -/
def foldedPorts : List ℕ :=
  [0, 80, 443]

namespace UrlTarget

/-- The text of a URL that names it. -/
def text (target : UrlTarget) : String :=
  target.scheme ++ "://" ++ target.host ++ portText (some target.port) ++ target.path ++
    queryText target.query

/-- With the port that the text is read with. -/
def folded (target : UrlTarget) : UrlTarget :=
  if target.port ∈ foldedPorts then { target with port := defaultPort target.scheme } else target

/-- Two targets differ at most in their ports. -/
def SameButPort (target target' : UrlTarget) : Prop :=
  { target with port := 0 } = { target' with port := 0 }

end UrlTarget

/-- The normal form of two URLs is sound: it is a normal form, and if they share it, they name one
service. -/
def SoundNormalForm (tools : TextTools) (u v : String) : Prop :=
  (∀ url, urlOf tools u = some url → urlOf tools url = some url) ∧
    (∀ url, urlOf tools v = some url → urlOf tools url = some url) ∧
    ∀ url, urlOf tools u = some url → urlOf tools v = some url → targetOf tools u = targetOf tools v

/-- Two URLs name services on one host that differ only in their ports, and both ports are left out. -/
def PortsConfused (tools : TextTools) (u v : String) : Prop :=
  ∃ target target', targetOf tools u = some target ∧ targetOf tools v = some target' ∧
    target.SameButPort target' ∧ target.port ≠ target'.port ∧ target.port ∈ foldedPorts ∧
    target'.port ∈ foldedPorts

/-! ## The text of a target -/

theorem portText_of_mem {n : ℕ} (h : n ∈ foldedPorts) : portText (some n) = "" :=
  if_pos (by simpa [foldedPorts] using h)

theorem toList_portText_of_notMem {n : ℕ} (h : n ∉ foldedPorts) :
    (portText (some n)).toList = portChars (some n) := by
  rw [portText, if_neg (by simpa [foldedPorts] using h), String.toList_append]
  rfl

theorem defaultPort_mem (scheme : String) : defaultPort scheme ∈ foldedPorts := by
  rw [defaultPort]
  split_ifs <;> decide

/-- **The normal form is the text of what the URL names.** -/
theorem urlOf_eq_target (tools : TextTools) (raw : String) :
    urlOf tools raw = (targetOf tools raw).map UrlTarget.text := by
  rw [urlOf_eq, targetOf]
  cases tools.urlsplit raw with
  | none => rfl
  | some parts =>
    dsimp only [Option.bind_some]
    by_cases hscheme : parts.scheme ≠ "http" ∧ parts.scheme ≠ "https"
    · rw [if_pos hscheme, if_pos hscheme]
      rfl
    · rw [if_neg hscheme, if_neg hscheme]
      cases parts.hostname with
      | none => rfl
      | some hostname =>
        dsimp only [Option.bind_some]
        by_cases hempty : hostname = ""
        · rw [if_pos hempty, if_pos hempty]
          rfl
        · rw [if_neg hempty, if_neg hempty]
          cases domainOf tools hostname with
          | none => rfl
          | some host =>
            have hport : portText parts.port =
                portText (some (parts.port.getD (defaultPort parts.scheme))) := by
              cases parts.port with
              | none => exact (portText_of_mem (defaultPort_mem parts.scheme)).symm
              | some n => rfl
            rw [hport]
            rfl

namespace StandardLibrary

variable {library : StandardLibrary} {raw : String} {target target' : UrlTarget}

/-- What the parts of a target promise. -/
structure Readable (library : StandardLibrary) (target : UrlTarget) : Prop where
  scheme : target.scheme = "http" ∨ target.scheme = "https"
  host : domainOf library.textTools target.host = some target.host
  port : target.port ≤ 65535
  path : ∃ tail, target.path.toList = '/' :: tail
  path_chars : ∀ c ∈ target.path.toList, c ≠ '?' ∧ c ≠ '#' ∧ staysInUrl c = true
  query_chars : ∀ c ∈ target.query.toList, c ≠ '#' ∧ staysInUrl c = true

theorem domainOf_eq (library : StandardLibrary) (value : String) :
    domainOf library.textTools value =
      (library.idnaText (String.ofList (value.toList.rdropWhile (· = '.')))).bind fun domain =>
        if domain.length ≤ 253 ∧ domain ≠ "" ∧ (domain.toList.splitOn '.').all isLabel then some domain
        else none := by
  rw [List.rdropWhile]
  rfl

section Domain

variable {value domain : String} (h : domainOf library.textTools value = some domain)
include h

theorem length_domainOf : domain.length ≤ 253 := by
  rw [domainOf_eq] at h
  obtain ⟨found, -, h⟩ := Option.bind_eq_some_iff.mp h
  obtain ⟨hall, heq⟩ := Option.ite_none_right_eq_some.mp h
  exact Option.some.inj heq ▸ hall.1

/-- After a dot at the end there would be a label without characters. -/
theorem rdropWhile_domainOf : domain.toList.rdropWhile (· = '.') = domain.toList := by
  obtain ⟨-, -, hlabels⟩ := domainOf_eq_some h
  refine List.rdropWhile_eq_self_iff.mpr fun hnil hdot => ?_
  have hsplit : domain.toList = domain.toList.dropLast ++ '.' :: [] := by
    conv_lhs => rw [← List.dropLast_append_getLast hnil, of_decide_eq_true hdot]
  have hempty : [] ∈ domain.toList.splitOn '.' := by
    rw [hsplit, List.splitOn_eq_splitOnP, List.splitOnP_append_cons _ _ (by simp)]
    exact List.mem_append_right _ (by simp)
  exact absurd (hlabels [] hempty) (by decide)

theorem areLabels_domainOf : areLabels (domain.toList.splitOn '.') = true := by
  obtain ⟨-, -, hlabels⟩ := domainOf_eq_some h
  rw [areLabels, Bool.and_eq_true, List.all_eq_true, List.all_eq_true]
  refine ⟨fun label hlabel => ?_, fun label hlabel => ?_⟩
  · have hshort := hlabels label hlabel
    simp only [isLabel, Bool.and_eq_true, decide_eq_true_eq] at hshort
    exact decide_eq_true (Nat.lt_succ_of_le hshort.1.1.1)
  · have hfull := hlabels label (List.mem_of_mem_dropLast hlabel)
    refine decide_eq_true fun hnil => ?_
    rw [hnil] at hfull
    exact absurd hfull (by decide)

/-- A domain is in normal form. -/
theorem domainOf_domainOf : domainOf library.textTools domain = some domain := by
  obtain ⟨-, hne, hlabels⟩ := domainOf_eq_some h
  have hchars := isDomainChar_of_domainOf h
  have hascii : ∀ c ∈ domain.toList, isAscii c = true := fun c hc =>
    (endsNetloc_of_isDomainChar (hchars c hc)).1
  have hlower : domain.toList.map Char.toLower = domain.toList := by
    conv_rhs => rw [← List.map_id domain.toList]
    exact List.map_congr_left fun c hc => (endsNetloc_of_isDomainChar (hchars c hc)).2.1
  have hidna : library.idnaText domain = some domain := by
    rw [idnaText, if_pos (List.all_eq_true.mpr hascii), hlower, if_pos (areLabels_domainOf h),
      String.ofList_toList]
  rw [domainOf_eq, rdropWhile_domainOf h, String.ofList_toList, hidna, Option.bind_some,
    if_pos ⟨length_domainOf h, hne, List.all_eq_true.mpr hlabels⟩]

end Domain

/-- What follows the netloc has no tabs and line breaks. -/
theorem staysInUrl_of_mem {raw : String} {c : Char}
    (hc : c ∈ (splitNetloc (splitScheme (cleanUrl raw)).2).2) : staysInUrl c = true := by
  have hrest : (splitNetloc (splitScheme (cleanUrl raw)).2).2 <:+: cleanUrl raw := by
    refine List.IsInfix.trans ?_ (splitScheme_within (cleanUrl raw))
    rw [splitNetloc]
    split_ifs
    · exact ((List.dropWhile_suffix _).trans (List.drop_suffix 2 _)).isInfix
    · exact List.infix_rfl
  exact (List.mem_filter.mp (hrest.subset hc)).2

theorem notMem_before (separator : Char) (text : List Char) : separator ∉ before separator text :=
  fun hmem => by simpa using List.mem_takeWhile_imp hmem

/-- What `targetOf` reads off the parts. -/
theorem targetOf_eq_some (h : targetOf library.textTools raw = some target) :
    ∃ parts name, library.urlsplit raw = some parts ∧ parts.hostname = some name ∧
      (parts.scheme = "http" ∨ parts.scheme = "https") ∧ name ≠ "" ∧
      domainOf library.textTools name = some target.host ∧
      target = { scheme := parts.scheme
                 host := target.host
                 port := parts.port.getD (defaultPort parts.scheme)
                 path := pathText parts.path
                 query := parts.query } := by
  obtain ⟨parts, hparts, h⟩ := Option.bind_eq_some_iff.mp h
  split_ifs at h with hscheme
  obtain ⟨name, hname, h⟩ := Option.bind_eq_some_iff.mp h
  split_ifs at h with hempty
  obtain ⟨host, hhost, rfl⟩ := Option.map_eq_some_iff.mp h
  have hscheme : parts.scheme = "http" ∨ parts.scheme = "https" := by
    by_contra hneither
    exact hscheme (not_or.mp hneither)
  exact ⟨parts, name, hparts, hname, hscheme, hempty, hhost, rfl⟩

theorem targetOf_of_parts {parts : UrlParts} {name host : String} (hparts : library.urlsplit raw = some parts)
    (hscheme : parts.scheme = "http" ∨ parts.scheme = "https") (hname : parts.hostname = some name)
    (hne : name ≠ "") (hhost : domainOf library.textTools name = some host) :
    targetOf library.textTools raw = some {
      scheme := parts.scheme
      host := host
      port := parts.port.getD (defaultPort parts.scheme)
      path := pathText parts.path
      query := parts.query } := by
  have hneither : ¬ (parts.scheme ≠ "http" ∧ parts.scheme ≠ "https") := fun h =>
    hscheme.elim h.1 h.2
  have htools : library.textTools.urlsplit raw = some parts := hparts
  rw [targetOf, htools, Option.bind_some, if_neg hneither, hname, Option.bind_some, if_neg hne, hhost,
    Option.map_some]

theorem readable_of_targetOf (h : targetOf library.textTools raw = some target) :
    library.Readable target := by
  obtain ⟨parts, name, hparts, hname, hscheme, -, hhost, htarget⟩ := targetOf_eq_some h
  have hpath := path_of_urlsplit hparts hname
  obtain ⟨hport, hpathOf, hqueryOf⟩ := urlsplit_tail hparts
  have hstays : ∀ c ∈ (splitNetloc (splitScheme (cleanUrl raw)).2).2, staysInUrl c = true :=
    fun c hc => staysInUrl_of_mem hc
  refine ⟨?_, domainOf_domainOf hhost, ?_, ?_, ?_, ?_⟩
  · rw [htarget]
    exact hscheme
  · rw [htarget]
    cases hwritten : parts.port with
    | none =>
      show defaultPort parts.scheme ≤ 65535
      rw [defaultPort]
      split_ifs <;> decide
    | some n => exact hport n hwritten
  · rw [htarget]
    show ∃ tail, (pathText parts.path).toList = '/' :: tail
    rw [pathText]
    split_ifs with hnone
    · exact ⟨[], rfl⟩
    · exact hpath.resolve_left hnone
  · rw [htarget]
    show ∀ c ∈ (pathText parts.path).toList, c ≠ '?' ∧ c ≠ '#' ∧ staysInUrl c = true
    rw [pathText]
    split_ifs with hnone
    · exact List.forall_mem_singleton.mpr ⟨by decide, by decide, rfl⟩
    · intro c hc
      rw [hpathOf, String.toList_ofList] at hc
      have hfront := (before_within '?' _).subset hc
      refine ⟨?_, ?_, hstays c ((before_within '#' _).subset hfront)⟩
      · rintro rfl
        exact notMem_before '?' _ hc
      · rintro rfl
        exact notMem_before '#' _ hfront
  · rw [htarget]
    intro c hc
    have hc : c ∈ behind '?' (before '#' (splitNetloc (splitScheme (cleanUrl raw)).2).2) := by
      have hquery : c ∈ parts.query.toList := hc
      rwa [hqueryOf, String.toList_ofList] at hquery
    have hfront := (behind_within '?' _).subset hc
    refine ⟨?_, hstays c ((before_within '#' _).subset hfront)⟩
    rintro rfl
    exact notMem_before '#' _ hfront

theorem before_tail (h : library.Readable target) :
    before '#' (target.path.toList ++ (queryText target.query).toList) =
      target.path.toList ++ (queryText target.query).toList := by
  refine before_eq_self fun hmem => ?_
  rcases List.mem_append.mp hmem with hmem | hmem
  · exact (h.path_chars _ hmem).2.1 rfl
  · rw [queryText] at hmem
    split_ifs at hmem
    · exact absurd hmem List.not_mem_nil
    · rw [String.toList_append] at hmem
      rcases List.mem_append.mp hmem with hmem | hmem
      · exact absurd hmem (by decide)
      · exact (h.query_chars _ hmem).1 rfl

theorem before_behind_tail (h : library.Readable target) :
    before '?' (target.path.toList ++ (queryText target.query).toList) = target.path.toList ∧
      behind '?' (target.path.toList ++ (queryText target.query).toList) = target.query.toList := by
  have hpath : '?' ∉ target.path.toList := fun hmem => (h.path_chars _ hmem).1 rfl
  rw [queryText]
  split_ifs with hempty
  · rw [hempty, String.toList_empty, List.append_nil]
    exact ⟨before_eq_self hpath, behind_eq_nil hpath⟩
  · rw [String.toList_append]
    exact ⟨before_append hpath _, behind_append hpath _⟩

/-- **A normal form is read as what it was made of**, apart from the ports that it leaves out. -/
theorem targetOf_text (h : library.Readable target) :
    targetOf library.textTools target.text = some target.folded := by
  obtain ⟨hne, hchars⟩ : target.host ≠ "" ∧ ∀ c ∈ target.host.toList, isDomainChar c = true :=
    ⟨(domainOf_eq_some h.host).2.1, isDomainChar_of_domainOf h.host⟩
  obtain ⟨tail, htail⟩ := h.path
  have hport : ∃ port : Option ℕ, (portText (some target.port)).toList = portChars port ∧
      (∀ n, port = some n → n ≤ 65535) ∧
      { target with port := port.getD (defaultPort target.scheme) } = target.folded := by
    by_cases hfolded : target.port ∈ foldedPorts
    · refine ⟨none, ?_, fun _ hn => (nomatch hn), (if_pos hfolded).symm⟩
      rw [portText_of_mem hfolded]
      rfl
    · exact ⟨some target.port, toList_portText_of_notMem hfolded,
        fun n hn => Option.some.inj hn ▸ h.port, (if_neg hfolded).symm⟩
  obtain ⟨port, hchars', hle, hfolded⟩ := hport
  have hurl : target.text.toList = target.scheme.toList ++ [':', '/', '/'] ++ target.host.toList ++
      portChars port ++ '/' :: (tail ++ (queryText target.query).toList) := by
    rw [UrlTarget.text, String.toList_append, String.toList_append, String.toList_append,
      String.toList_append, String.toList_append, htail, hchars']
    simp only [List.append_assoc, List.cons_append]
    rfl
  have hstays : ∀ c ∈ tail ++ (queryText target.query).toList, staysInUrl c = true := by
    intro c hc
    rcases List.mem_append.mp hc with hc | hc
    · exact (h.path_chars c (htail ▸ List.mem_cons_of_mem _ hc)).2.2
    · rw [queryText] at hc
      split_ifs at hc
      · exact absurd hc List.not_mem_nil
      · rw [String.toList_append] at hc
        rcases List.mem_append.mp hc with hc | hc
        · obtain rfl : c = '?' := List.mem_singleton.mp hc
          rfl
        · exact (h.query_chars c hc).2
  have hrest : '/' :: (tail ++ (queryText target.query).toList).filter staysInUrl =
      target.path.toList ++ (queryText target.query).toList := by
    rw [List.filter_eq_self.mpr hstays, htail, List.cons_append]
  have hsplit : library.urlsplit target.text = some {
      scheme := target.scheme, hostname := some target.host, port := port, path := target.path,
      query := target.query } := by
    rw [urlsplit_parts h.scheme hchars hne hle hurl, hrest, before_tail h, (before_behind_tail h).1,
      (before_behind_tail h).2, String.ofList_toList, String.ofList_toList]
  have hpath : pathText target.path = target.path := by
    refine if_neg fun hempty => ?_
    rw [hempty] at htail
    exact nomatch htail
  rw [targetOf_of_parts hsplit h.scheme rfl hne h.host]
  dsimp only
  rw [hpath]
  exact congrArg some hfolded

theorem text_folded (target : UrlTarget) : target.folded.text = target.text := by
  rw [UrlTarget.folded]
  split_ifs with hfolded
  · rw [UrlTarget.text, UrlTarget.text, portText_of_mem hfolded,
      portText_of_mem (defaultPort_mem target.scheme)]
  · rfl

/-- The normal form of a normal form. -/
theorem urlOf_urlOf {url : String} (h : urlOf library.textTools raw = some url) :
    urlOf library.textTools url = some url := by
  rw [urlOf_eq_target] at h
  obtain ⟨target, htarget, rfl⟩ := Option.map_eq_some_iff.mp h
  rw [urlOf_eq_target, targetOf_text (readable_of_targetOf htarget), Option.map_some, text_folded]

/-! ## One normal form -/

theorem eq_or_of_folded_eq (h : target.folded = target'.folded) :
    target = target' ∨ target.SameButPort target' ∧ target.port ∈ foldedPorts ∧
      target'.port ∈ foldedPorts := by
  have hports := congrArg UrlTarget.port h
  have hsame := congrArg (fun target : UrlTarget => { target with port := 0 }) h
  rw [UrlTarget.folded, UrlTarget.folded] at h hports hsame
  by_cases hmem : target.port ∈ foldedPorts
  · by_cases hmem' : target'.port ∈ foldedPorts
    · rw [if_pos hmem, if_pos hmem'] at hsame
      exact Or.inr ⟨hsame, hmem, hmem'⟩
    · rw [if_pos hmem, if_neg hmem'] at hports
      exact absurd (hports ▸ defaultPort_mem target.scheme) hmem'
  · by_cases hmem' : target'.port ∈ foldedPorts
    · rw [if_neg hmem, if_pos hmem'] at hports
      exact absurd (hports.symm ▸ defaultPort_mem target'.scheme) hmem
    · rw [if_neg hmem, if_neg hmem'] at h
      exact Or.inl h

theorem text_eq_of_sameButPort (h : target.SameButPort target') (hmem : target.port ∈ foldedPorts)
    (hmem' : target'.port ∈ foldedPorts) : target.text = target'.text := by
  obtain ⟨scheme, host, port, path, query⟩ := target
  obtain ⟨scheme', host', port', path', query'⟩ := target'
  simp only [UrlTarget.SameButPort, UrlTarget.mk.injEq, true_and] at h
  obtain ⟨rfl, rfl, rfl, rfl⟩ := h
  rw [UrlTarget.text, UrlTarget.text, portText_of_mem hmem, portText_of_mem hmem']

/-- **When a normal form is sound.**  It always is a normal form.  It stands for one service unless two
URLs differ only in their ports, and both ports are among those that are left out. -/
theorem soundNormalForm_iff (library : StandardLibrary) (u v : String) :
    SoundNormalForm library.textTools u v ↔ ¬ PortsConfused library.textTools u v := by
  constructor
  · rintro ⟨-, -, hone⟩ ⟨target, target', ht, ht', hsame, hne, hmem, hmem'⟩
    have hu : urlOf library.textTools u = some target.text := by
      rw [urlOf_eq_target, ht, Option.map_some]
    have hv : urlOf library.textTools v = some target.text := by
      rw [urlOf_eq_target, ht', Option.map_some, text_eq_of_sameButPort hsame hmem hmem']
    have heq := hone target.text hu hv
    rw [ht, ht'] at heq
    exact hne (congrArg UrlTarget.port (Option.some.inj heq))
  · intro hnot
    refine ⟨fun url => urlOf_urlOf, fun url => urlOf_urlOf, fun url hu hv => ?_⟩
    rw [urlOf_eq_target] at hu hv
    obtain ⟨target, ht, rfl⟩ := Option.map_eq_some_iff.mp hu
    obtain ⟨target', ht', htext⟩ := Option.map_eq_some_iff.mp hv
    -- both texts are read again, as what they were made of
    have hread := targetOf_text (readable_of_targetOf ht)
    rw [← htext, targetOf_text (readable_of_targetOf ht')] at hread
    rw [ht, ht']
    rcases eq_or_of_folded_eq (Option.some.inj hread).symm with heq | ⟨hsame, hmem, hmem'⟩
    · rw [heq]
    · by_cases hport : target.port = target'.port
      · obtain ⟨scheme, host, port, path, query⟩ := target
        obtain ⟨scheme', host', port', path', query'⟩ := target'
        simp only [UrlTarget.SameButPort, UrlTarget.mk.injEq, true_and] at hsame hport
        obtain ⟨rfl, rfl, rfl, rfl⟩ := hsame
        rw [hport]
      · exact absurd ⟨target, target', ht, ht', hsame, hport, hmem, hmem'⟩ hnot

/-- A service at port 443 has the normal form of the one at the port of its scheme. -/
theorem wrong_service :
    ¬ SoundNormalForm ascii.textTools "http://host.example:443/" "http://host.example/" := by
  rintro ⟨-, -, hone⟩
  have hu : urlOf ascii.textTools "http://host.example:443/" = some "http://host.example/" := by
    decide +kernel
  have hv : urlOf ascii.textTools "http://host.example/" = some "http://host.example/" := by
    decide +kernel
  exact absurd (hone _ hu hv) (by decide +kernel)

end StandardLibrary

end Intelligence
end Scam2Market
