import Srnd.Message.Wire
import Mathlib.Data.List.Forall2

/-!
# `config.go`: the two ini files

`CheckConfig` writes `srnd.ini` and `feeds.ini` from `GenSRNdConfig` and
`GenFeedsConfig` when they are missing, and `ReadConf` reads them back into
an `SRNdConfig`: the options of the sections `nntp`, `database`, `articles`
and `frontend` of `srnd.ini`, and one `FeedConfig` for each section of
`feeds.ini` that `Find("feed-*")` returns.

`configparser` is not in the sources.  A file is what `configparser.Read`
returns, a list of sections with their options, and the file `Save` writes
reads back as the configuration saved.  A Go `map[string]string` is kept as
its entries, as in `Srnd.Message.Wire`.  `strings.ToLower`, which the proxy
settings go through, is the parameter `toLower` of the functions that read
`feeds.ini`.

* `feedLoop` is the loop of `ReadConf` that fills the slice
  `make([]FeedConfig, num_sections)` at `idx`; `readFeeds_eq_mapM` says it
  loads the found sections in order, stopping at the first error.
* `readConf_feeds` reads every configuration `ReadConf` returns: the frontend
  has an `enable` option, and the feeds are, in order, one per section whose
  name starts with `feed-`, each with the policy of the section named by the
  rest of its name.  `GenFeedsConfig` names both its sections
  `10.0.0.1:119`, so the default `feeds.ini` configures no feed
  (`readConf_defaults`).
* `readConf_error_names_file`: every way `ReadConf` fails names the file it
  read.
-/

namespace Srnd.Config

open Srnd.Message (mapSet)

/-- A section of an ini file: its name and its options in the order of the
file. -/
structure Section where
  name : String
  options : List (String × String)
  deriving DecidableEq, Repr

/-- An ini file as `configparser.Read` returns it: its sections in order. -/
structure Configuration where
  sections : List Section
  deriving DecidableEq, Repr

/-- `conf.Section(name)`: the first section of that name. -/
def Configuration.getSection (conf : Configuration) (name : String) : Option Section :=
  conf.sections.find? (·.name = name)

/-- `conf.Find("feed-*")`: the sections whose name the glob matches. -/
def Configuration.findFeeds (conf : Configuration) : List Section :=
  conf.sections.filter fun s => "feed-".toList.isPrefixOf s.name.toList

/-- Go's `m[k]` on a map kept as its entries, with the ok flag. -/
def mapGet (m : List (String × String)) (k : String) : Option String :=
  (m.find? (·.1 = k)).map Prod.snd

/-- `s.Options()`: the options as a map, a later one replacing an earlier
one of the same key. -/
def Section.optionsMap (s : Section) : List (String × String) :=
  s.options.foldl (fun m kv => mapSet kv.1 kv.2 m) []

/-- `sect.ValueOf(key)`: `""` for a missing option. -/
def Section.valueOf (s : Section) (key : String) : String := (mapGet s.optionsMap key).getD ""

/-- `strings.Trim(s, " ")`. -/
def trimSpaces (s : String) : String :=
  ⟨((s.toList.dropWhile (· == ' ')).reverse.dropWhile (· == ' ')).reverse⟩

/-- `FeedConfig`. -/
structure FeedConfig where
  /-- `policy.rules`. -/
  policy : List (String × String)
  addr : String
  proxyType : String
  proxyAddr : String
  deriving DecidableEq, Repr, Inhabited

/-- `SRNdConfig`. -/
structure SRNdConfig where
  daemon : List (String × String)
  store : List (String × String)
  database : List (String × String)
  feeds : List FeedConfig
  frontend : List (String × String)
  deriving DecidableEq, Repr, Inhabited

/-- How `ReadConf` ends without a configuration: `log.Fatal` exits the
daemon, and the other paths log their text and return `nil`.  `log.Fatal`
formats with `fmt.Sprint`, which puts no space between two strings. -/
inductive ConfError
  | fatal (msg : String)
  | missing (msg : String)
  deriving DecidableEq, Repr

/-- The text an error logs. -/
def ConfError.msg : ConfError → String
  | .fatal msg | .missing msg => msg

/-! ## `ReadConf` -/

section ReadConf

/- `toLower` is `strings.ToLower`, which lowers every rune with
`unicode.ToLower`; the standard library is not in the sources. -/
variable (toLower : String → String)

/-- The proxy settings of a feed section: none unless `proxy-type` is set
and is not `none`. -/
def proxySettings (sect : Section) : String × String :=
  let val := sect.valueOf "proxy-type"
  if val.length > 0 ∧ toLower val ≠ "none" then
    (toLower val,
      trimSpaces (sect.valueOf "proxy-host") ++ ":" ++ trimSpaces (sect.valueOf "proxy-port"))
  else ("", "")

/-- `sect.Name()[5:]`.  A name that reaches it starts with the five one-byte
characters of `feed-`, so the slice is in range and cuts after them. -/
def feedName (sect : Section) : String := ⟨sect.name.toList.drop 5⟩

/-- One turn of the feed loop: the proxy settings of `sect` and the policy of
the section named after it. -/
def loadFeed (conf : Configuration) (sect : Section) : Except ConfError FeedConfig :=
  let proxy := proxySettings toLower sect
  match conf.getSection (feedName sect) with
  | none => .error (.fatal ("no section" ++ feedName sect ++ "in feeds.ini"))
  | some feedSect => .ok ⟨feedSect.optionsMap, trimSpaces (feedName sect), proxy.1, proxy.2⟩

/-- The feed loop, `sconf.feeds[idx] = fconf; idx += 1` over the found
sections. -/
def feedLoop (conf : Configuration) :
    List Section → Nat → List FeedConfig → Except ConfError (List FeedConfig)
  | [], _, feeds => .ok feeds
  | sect :: rest, idx, feeds => do
    let fconf ← loadFeed toLower conf sect
    feedLoop conf rest (idx + 1) (feeds.set idx fconf)

/-- The feeds of `feeds.ini`: `nil` when no section is found, else the loop
over `make([]FeedConfig, num_sections)`. -/
def readFeeds (conf : Configuration) : Except ConfError (List FeedConfig) :=
  let sections := conf.findFeeds
  if sections.length > 0 then
    feedLoop toLower conf sections 0 (List.replicate sections.length default)
  else .ok []

/-- The frontend options: `enable` is `"0"` without a `frontend` section and
when the section does not set it. -/
def frontendOptions : Option Section → List (String × String)
  | none => mapSet "enable" "0" []
  | some s =>
    let frontend := s.optionsMap
    if (mapGet frontend "enable").isNone then mapSet "enable" "0" frontend else frontend

/-- `ReadConf()`, from the files `srnd.ini` and `feeds.ini` as read, `none`
for one that cannot be read. -/
def readConf (srndIni feedsIni : Option Configuration) : Except ConfError SRNdConfig :=
  match srndIni with
  | none => .error (.fatal ("cannot read config file" ++ "srnd.ini"))
  | some conf =>
    match conf.getSection "nntp", conf.getSection "database", conf.getSection "articles" with
    | none, _, _ => .error (.missing "no section 'nntp' in srnd.ini")
    | some _, none, _ => .error (.missing "no section 'database' in srnd.ini")
    | some _, some _, none => .error (.missing "no section 'articles' in srnd.ini")
    | some nntp, some database, some articles =>
      let frontend := frontendOptions (conf.getSection "frontend")
      match feedsIni with
      | none => .error (.fatal ("cannot read config file" ++ "feeds.ini"))
      | some feeds => (readFeeds toLower feeds).map fun fs =>
          ⟨nntp.optionsMap, articles.optionsMap, database.optionsMap, fs, frontend⟩

/-! ## The default files -/

/-- The `srnd.ini` that `GenSRNdConfig` writes. -/
def genSRNdConfig : Configuration := ⟨[
  ⟨"nntp", [("instance_name", "test.srndv2.tld"), ("bind", "127.0.0.1:1199"),
    ("sync_on_start", "1")]⟩,
  ⟨"articles", [("store_dir", "articles"), ("incoming_dir", "articles")]⟩,
  ⟨"database", [("type", "postgres"), ("schema", "srnd"), ("host", "127.0.0.1"),
    ("port", "5432"), ("user", "root"), ("password", "root")]⟩,
  ⟨"frontend", [("enable", "1"), ("bind", "127.0.0.1:18000"), ("name", "web.srndv2.test"),
    ("webroot", "webroot"), ("prefix", "/"), ("templates", "contrib/templates/default")]⟩]⟩

/-- The `feeds.ini` that `GenFeedsConfig` writes: two sections of one name,
as the code creates them (whether `configparser` merges them changes no
name). -/
def genFeedsConfig : Configuration := ⟨[
  ⟨"10.0.0.1:119", [("proxy-type", "socks4a"), ("proxy-host", "127.0.0.1"),
    ("proxy-port", "9050")]⟩,
  ⟨"10.0.0.1:119", [("overchan.*", "1"), ("ano.paste", "0"), ("ctl", "1")]⟩]⟩

/-- `CheckConfig()`: each missing file is written with its default. -/
def checkConfig (srndIni feedsIni : Option Configuration) : Configuration × Configuration :=
  (srndIni.getD genSRNdConfig, feedsIni.getD genFeedsConfig)

/-! ## The feed loop -/

/-- The loop with `done` filled in and the rest of the slice at its zero
value loads the remaining sections after `done`. -/
theorem feedLoop_eq (conf : Configuration) :
    ∀ (rest : List Section) (done : List FeedConfig),
      feedLoop toLower conf rest done.length (done ++ List.replicate rest.length default) =
        (rest.mapM (loadFeed toLower conf)).map (done ++ ·)
  | [], done => by
    rw [List.mapM_nil]
    simp [feedLoop, pure, Except.pure, Except.map]
  | sect :: rest, done => by
    have hset : (done ++ List.replicate (rest.length + 1) default).set done.length =
        fun fconf => (done ++ [fconf]) ++ List.replicate rest.length default := by
      funext fconf
      simp [List.set_append_right, List.replicate_succ]
    simp only [feedLoop, List.length_cons, hset, List.mapM_cons]
    cases loadFeed toLower conf sect with
    | error e => rfl
    | ok fconf =>
      have ih := feedLoop_eq conf rest (done ++ [fconf])
      rw [List.length_append, List.length_singleton] at ih
      simp only [bind, Except.bind, ih]
      cases rest.mapM (loadFeed toLower conf) <;> simp [Except.map, pure, Except.pure]

theorem readFeeds_eq_mapM (conf : Configuration) :
    readFeeds toLower conf = conf.findFeeds.mapM (loadFeed toLower conf) := by
  unfold readFeeds
  dsimp only
  split_ifs with h
  · have h0 := feedLoop_eq toLower conf conf.findFeeds []
    simp only [List.length_nil, List.nil_append] at h0
    rw [h0]
    cases conf.findFeeds.mapM (loadFeed toLower conf) <;> rfl
  · rw [List.eq_nil_of_length_eq_zero (Nat.eq_zero_of_not_pos h)]
    rfl

theorem forall₂_of_mapM_ok {α β ε : Type} {f : α → Except ε β} :
    ∀ {l : List α} {l' : List β}, l.mapM f = .ok l' →
      List.Forall₂ (fun a b => f a = .ok b) l l'
  | [], l', h => by
    cases h
    exact .nil
  | a :: l, l', h => by
    rw [List.mapM_cons] at h
    cases ha : f a with
    | error e =>
      rw [ha] at h
      cases h
    | ok b =>
      cases hl : l.mapM f with
      | error e =>
        rw [ha, hl] at h
        cases h
      | ok bs =>
        rw [ha, hl] at h
        cases h
        exact .cons ha (forall₂_of_mapM_ok hl)

/-! ## What `ReadConf` returns -/

theorem mapGet_mapSet_self (k v : String) (m : List (String × String)) :
    mapGet (mapSet k v m) k = some v := by
  unfold mapSet mapGet
  split_ifs with h
  · obtain ⟨e, he, hek⟩ := List.any_eq_true.1 h
    rw [List.find?_map]
    obtain ⟨e', he'⟩ := Option.isSome_iff_exists.1
      (List.find?_isSome.2 ⟨e, he, by simpa using hek⟩ : (m.find? (·.1 = k)).isSome)
    have hk : e'.1 = k := by simpa using List.find?_some he'
    have hf : m.find? ((·.1 = k) ∘ fun e => if e.1 = k then (k, v) else e) =
        m.find? (·.1 = k) := by
      congr 1
      funext e
      by_cases hek : e.1 = k <;> simp [hek]
    simp [hf, he', hk]
  · rw [List.find?_append,
      List.find?_eq_none.2 fun e he hek => h (List.any_eq_true.2 ⟨e, he, hek⟩)]
    simp

theorem frontendOptions_enable (s : Option Section) :
    (mapGet (frontendOptions s) "enable").isSome := by
  cases s with
  | none => rfl
  | some s =>
    unfold frontendOptions
    dsimp only
    split_ifs with h
    · rw [mapGet_mapSet_self]
      rfl
    · simpa [Option.isSome_iff_ne_none] using h

/-- A section `Find("feed-*")` returns is named `feed-` and its feed name. -/
theorem name_eq_feedName {sect : Section}
    (h : "feed-".toList.isPrefixOf sect.name.toList = true) :
    sect.name = "feed-" ++ feedName sect := by
  obtain ⟨t, ht⟩ := List.isPrefixOf_iff_prefix.1 h
  refine String.ext ?_
  change sect.name.toList = "feed-".toList ++ sect.name.toList.drop "feed-".toList.length
  rw [← ht, List.drop_left]

/-- Every configuration `ReadConf` returns has the frontend option `enable`,
and feeds that are, in order, one per section of `feeds.ini` whose name
starts with `feed-`: a feed section named `feed-` and `n` gives the address
`n` without its surrounding spaces and the options of the first section
named `n` as its policy. -/
theorem readConf_feeds (srndIni feedsIni : Option Configuration) (c : SRNdConfig)
    (h : readConf toLower srndIni feedsIni = .ok c) :
    (mapGet c.frontend "enable").isSome ∧
      ∃ feeds, feedsIni = some feeds ∧
        List.Forall₂ (fun sect fc => ∃ n policy, sect.name = "feed-" ++ n ∧
            feeds.getSection n = some policy ∧ fc.addr = trimSpaces n ∧
              fc.policy = policy.optionsMap)
          (feeds.sections.filter fun s => "feed-".toList.isPrefixOf s.name.toList) c.feeds := by
  unfold readConf at h
  split at h
  · cases h
  split at h <;> try cases h
  split at h
  · cases h
  rename_i feeds
  cases hf : readFeeds toLower feeds with
  | error e => simp [hf, Except.map] at h
  | ok fs =>
    simp only [hf, Except.map, Except.ok.injEq] at h
    subst h
    refine ⟨frontendOptions_enable _, feeds, rfl, ?_⟩
    rw [readFeeds_eq_mapM] at hf
    refine ((List.forall₂_and_left _ _).2 ⟨fun sect hs => (List.mem_filter.1 hs).2,
      forall₂_of_mapM_ok hf⟩).imp fun sect fc ⟨hp, hl⟩ => ?_
    unfold loadFeed at hl
    split at hl
    · cases hl
    · cases hl
      exact ⟨_, _, name_eq_feedName hp, ‹_›, rfl, rfl⟩

/-- A `feeds.ini` with one feed section and the section of its policy: the
feed is read with the address and the options of that section. -/
theorem readConf_feeds_one_feed :
    let lower : String → String := String.map Char.toLower
    let feeds : Configuration :=
      ⟨[⟨"feed-nntp.example:119", [("proxy-type", "none")]⟩,
        ⟨"nntp.example:119", [("overchan.*", "1")]⟩]⟩
    let c := (readConf lower (some genSRNdConfig) (some feeds)).toOption.getD default
    readConf lower (some genSRNdConfig) (some feeds) = .ok c ∧
      (mapGet c.frontend "enable").isSome ∧
      List.Forall₂ (fun (sect : Section) (fc : FeedConfig) => ∃ n policy,
          sect.name = "feed-" ++ n ∧ feeds.getSection n = some policy ∧
            fc.addr = trimSpaces n ∧ fc.policy = policy.optionsMap)
        [⟨"feed-nntp.example:119", [("proxy-type", "none")]⟩] c.feeds := by
  intro lower feeds c
  have h : readConf lower (some genSRNdConfig) (some feeds) = .ok c := rfl
  obtain ⟨he, feeds', hf, hc⟩ := readConf_feeds lower _ _ c h
  cases hf
  exact ⟨h, he, hc⟩

/-- The default files: `ReadConf` reads them, the frontend is enabled, and no
feed is configured, since neither section of the default `feeds.ini` is
named `feed-...`. -/
theorem readConf_defaults :
    let c : SRNdConfig :=
      (readConf toLower (some genSRNdConfig) (some genFeedsConfig)).toOption.getD default
    readConf toLower (some genSRNdConfig) (some genFeedsConfig) = .ok c ∧
      mapGet c.frontend "enable" = some "1" ∧ c.feeds = [] :=
  ⟨rfl, rfl, rfl⟩

/-! ## Errors -/

theorem exists_of_mapM_error {α β ε : Type} {f : α → Except ε β} {e : ε} :
    ∀ {l : List α}, l.mapM f = .error e → ∃ a ∈ l, f a = .error e
  | [], h => by cases h
  | a :: l, h => by
    rw [List.mapM_cons] at h
    cases ha : f a with
    | error e' =>
      rw [ha] at h
      cases h
      exact ⟨a, List.mem_cons_self _ _, ha⟩
    | ok b =>
      cases hl : l.mapM f with
      | error e' =>
        rw [ha, hl] at h
        cases h
        obtain ⟨a', ha', hfa⟩ := exists_of_mapM_error hl
        exact ⟨a', List.mem_cons_of_mem _ ha', hfa⟩
      | ok bs =>
        rw [ha, hl] at h
        cases h

/-- Every way `ReadConf` fails logs the name of the file it was reading. -/
theorem readConf_error_names_file {srndIni feedsIni : Option Configuration} {e : ConfError}
    (h : readConf toLower srndIni feedsIni = .error e) :
    "srnd.ini".toList <:+ e.msg.toList ∨ "feeds.ini".toList <:+ e.msg.toList := by
  unfold readConf at h
  split at h
  · cases h
    exact .inl (by decide)
  split at h <;> try (cases h; exact .inl (by decide))
  split at h
  · cases h
    exact .inr (by decide)
  cases hf : readFeeds toLower ‹Configuration› with
  | ok fs => simp [hf, Except.map] at h
  | error e' =>
    simp only [hf, Except.map, Except.error.injEq] at h
    subst h
    rw [readFeeds_eq_mapM] at hf
    obtain ⟨sect, -, hl⟩ := exists_of_mapM_error hf
    unfold loadFeed at hl
    split at hl
    · cases hl
      have hs : ("no section" ++ feedName sect ++ "in feeds.ini").toList =
          ("no section" ++ feedName sect).toList ++ "in feeds.ini".toList := String.data_append _ _
      rw [ConfError.msg, hs]
      exact .inr ((by decide : "feeds.ini".toList <:+ "in feeds.ini".toList).trans
        (List.suffix_append _ _))
    · cases hl

/-- Without `feeds.ini`, the error names it. -/
theorem readConf_error_names_file_feeds :
    readConf id (some genSRNdConfig) none =
        .error (.fatal ("cannot read config file" ++ "feeds.ini")) ∧
      ("srnd.ini".toList <:+ ("cannot read config file" ++ "feeds.ini").toList ∨
        "feeds.ini".toList <:+ ("cannot read config file" ++ "feeds.ini").toList) :=
  have h : readConf id (some genSRNdConfig) none =
      .error (.fatal ("cannot read config file" ++ "feeds.ini")) := rfl
  ⟨h, readConf_error_names_file id h⟩

end ReadConf

end Srnd.Config
