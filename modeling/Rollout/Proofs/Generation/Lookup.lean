import Mathlib
import Rollout.Proofs.Generation.Phases
import Rollout.Proofs.Generation.Routes

/-!
# Proofs/Generation/Lookup — the route that a request finds

The proxy puts a request into lower case and takes the entry whose key is the longest beginning of it
(`MapFile.lookup`).  The keys are a host's name and a path as they were given.  So a key with an
upper-case letter is found by no request at all, while one without is found by the request for the
route (`exists_lookup_iff`).  Two hosts can spell the same key, as `shop.local` with the path `-eu/`
and `shop.local-eu` with `/` do; where every path begins with a slash they cannot
(`Host.eq_of_key_eq`).
-/

namespace Rollout

/-! ## Looking up -/

/-- A text without upper-case letters of ASCII. -/
def IsLowered (s : String) : Prop := s.toLower = s

instance (s : String) : Decidable (IsLowered s) := inferInstanceAs (Decidable (s.toLower = s))

/-- **The entry that a request finds**: of those whose key it begins with in lower case, the first
with the longest key. -/
def MapFile.lookup (m : MapFile) (request : String) : Option MapEntry :=
  (m.entries.filter fun e => e.key.toList.isPrefixOf request.toLower.toList).argmax (·.key.length)

/-- Whatever a text in lower case begins with is in lower case. -/
theorem isLowered_of_isPrefix {key request : String}
    (h : key.toList <+: request.toLower.toList) : IsLowered key := by
  have hfixed : ∀ c ∈ key.toList, c.toLower = c := fun c hc => by
    have hmem := h.subset hc
    rw [String.toLower, String.toList_map] at hmem
    obtain ⟨d, -, rfl⟩ := List.mem_map.mp hmem
    exact Char.toLower_toLower_eq_toLower d
  refine String.toList_injective ?_
  rw [String.toLower, String.toList_map]
  exact (List.map_congr_left hfixed).trans (List.map_id' _)

namespace MapFile

variable {m : MapFile} {request : String} {e : MapEntry}

theorem lookup_spec (h : m.lookup request = some e) :
    e ∈ m.entries ∧ e.key.toList <+: request.toLower.toList := by
  have hmem := List.mem_filter.mp (List.argmax_mem h)
  exact ⟨hmem.1, List.isPrefixOf_iff_prefix.mp hmem.2⟩

/-- **A request finds an entry as soon as it begins with the key of one**, and then one whose key is
at least as long. -/
theorem exists_lookup (he : e ∈ m.entries) (hkey : e.key.toList <+: request.toLower.toList) :
    ∃ found, m.lookup request = some found ∧ e.key.length ≤ found.key.length := by
  have hmem : e ∈ m.entries.filter fun e => e.key.toList.isPrefixOf request.toLower.toList :=
    List.mem_filter.mpr ⟨he, List.isPrefixOf_iff_prefix.mpr hkey⟩
  cases hfound : m.lookup request with
  | none => exact absurd hmem (List.argmax_eq_none.mp hfound ▸ List.not_mem_nil)
  | some found =>
    have hlength : e.key.length ≤ found.key.length :=
      List.le_of_mem_argmax (f := fun e : MapEntry => e.key.length) hmem hfound
    exact ⟨found, rfl, hlength⟩

/-- **The key of an entry finds that key**, if it is in lower case. -/
theorem exists_lookup_key (he : e ∈ m.entries) (hlow : IsLowered e.key) :
    ∃ found ∈ m.entries, m.lookup e.key = some found ∧ found.key = e.key := by
  have hself : e.key.toList <+: e.key.toLower.toList := hlow.symm ▸ List.prefix_refl _
  obtain ⟨found, hfound, hlength⟩ := exists_lookup he hself
  obtain ⟨hmem, hkey⟩ := lookup_spec hfound
  rw [hlow] at hkey
  refine ⟨found, hmem, hfound, String.toList_injective (hkey.eq_of_length_le ?_)⟩
  rwa [String.length_toList, String.length_toList]

/-- **A key is found by some request exactly if it is in lower case.** -/
theorem exists_lookup_iff (he : e ∈ m.entries) :
    (∃ request found, m.lookup request = some found ∧ found.key = e.key) ↔ IsLowered e.key := by
  constructor
  · rintro ⟨request, found, hfound, hkey⟩
    exact hkey ▸ isLowered_of_isPrefix (lookup_spec hfound).2
  · intro hlow
    obtain ⟨found, -, hfound, hkey⟩ := exists_lookup_key he hlow
    exact ⟨e.key, found, hfound, hkey⟩

end MapFile

/-! ## The maps that serve a host -/

theorem DesiredState.http_ne_https (d : DesiredState) :
    d.describedFrontends.http.hostMap ≠ d.describedFrontends.https.hostMap := fun heq => by
  have hnames : httpFrontendName ++ "_host" ≠ httpsFrontendName ++ "_host" := by decide
  exact hnames (congrArg MapFile.name heq)

namespace Generation

variable {g : Generation} {h : Host} {m : MapFile}

/-- **The maps in which requests to a host are looked up**: over TLS if the host has a certificate,
and plain ones unless they are redirected.  There is none for a host whose stream is handed on. -/
def mapsServing (g : Generation) (h : Host) : List MapFile :=
  match g.frontends with
  | some f =>
    if h.passthrough then []
    else (if h.certificate.isSome then [f.https.hostMap] else [])
      ++ (if h.isRedirected g.state.globals then [] else [f.http.hostMap])
  | none => []

/-- A map serves a host if it is the one over TLS and the host has a certificate, or the plain one and
requests to the host are not redirected. -/
theorem mem_mapsServing_iff (hf : g.frontends = some g.state.describedFrontends) :
    m ∈ g.mapsServing h ↔ h.passthrough = false ∧
      (h.certificate.isSome = true ∧ m = g.state.describedFrontends.https.hostMap ∨
        h.isRedirected g.state.globals = false ∧ m = g.state.describedFrontends.http.hostMap) := by
  rw [mapsServing, hf]
  cases h.passthrough <;> cases h.certificate.isSome <;> cases h.isRedirected g.state.globals <;>
    simp

/-- **Every host that is not handed on is served by a map.** -/
theorem mapsServing_ne_nil (hf : g.frontends = some g.state.describedFrontends)
    (hterm : h.passthrough = false) : g.mapsServing h ≠ [] := by
  rw [mapsServing, hf, Host.isRedirected, hterm]
  cases h.certificate.isSome <;> simp

theorem IsBuilt.mapsServing_ne_nil (hg : g.IsBuilt) (hterm : h.passthrough = false) :
    g.mapsServing h ≠ [] := Generation.mapsServing_ne_nil hg.frontends_eq hterm

/-- **A map that serves a host holds the routes of all the hosts that it serves**, and nothing
else. -/
theorem IsBuilt.mem_entries_iff (hg : g.IsBuilt) (hm : m ∈ g.mapsServing h) {e : MapEntry} :
    e ∈ m.entries ↔ ∃ h' ∈ g.state.hosts, m ∈ g.mapsServing h' ∧
      ∃ r ∈ h'.routes, (⟨h'.key r, r.backend⟩ : MapEntry) = e := by
  have hne := g.state.http_ne_https
  simp only [mem_mapsServing_iff hg.frontends_eq] at hm ⊢
  rcases hm with ⟨-, ⟨-, rfl⟩ | ⟨-, rfl⟩⟩
  · simp only [hne.symm, and_true, and_false, or_false, and_assoc]
    exact DesiredState.mem_httpsEntries
  · simp only [hne, and_true, and_false, false_or, and_assoc]
    exact DesiredState.mem_httpEntries

end Generation

/-! ## Keys that two hosts share -/

/-- The name of a host is what stands before the first slash of a key. -/
theorem takeWhile_key {h : Host} (hs : SoundName h.hostname) {r : Route}
    (hr : r.path.toList.head? = some '/') :
    (h.key r).toList.takeWhile (· != '/') = h.hostname.toList := by
  obtain ⟨rest, hpath⟩ := List.head?_eq_some_iff.mp hr
  have hname : ∀ c ∈ h.hostname.toList, (c != '/') = true := fun c hc =>
    bne_iff_ne.mpr fun heq => hs.no_slash (heq ▸ hc)
  rw [Host.key, String.toList_append, hpath, List.takeWhile_append_of_pos hname,
    List.takeWhile_cons_of_neg (by decide), List.append_nil]

/-- **Sound hosts with paths that begin with a slash share no key.** -/
theorem Host.eq_of_key_eq {h h' : Host} (hs : h.Sound) (hs' : h'.Sound) {r r' : Route}
    (hr : r.path.toList.head? = some '/') (hr' : r'.path.toList.head? = some '/')
    (hkey : h'.key r' = h.key r) : h'.hostname = h.hostname ∧ r'.path = r.path := by
  have hname : h'.hostname.toList = h.hostname.toList := by
    rw [← takeWhile_key hs'.name hr', ← takeWhile_key hs.name hr, hkey]
  have hchars : h'.hostname.toList ++ r'.path.toList = h.hostname.toList ++ r.path.toList := by
    rw [← String.toList_append, ← String.toList_append]
    exact congrArg String.toList hkey
  exact ⟨String.toList_injective hname,
    String.toList_injective (List.append_inj_right hchars (congrArg List.length hname))⟩

namespace Generation

variable {g : Generation}

/-- No host that the map serves has a route of the same key to another backend. -/
def Uncontested (g : Generation) (m : MapFile) (h : Host) (r : Route) : Prop :=
  ∀ h' ∈ g.state.hosts, m ∈ g.mapsServing h' →
    ∀ r' ∈ h'.routes, h'.key r' = h.key r → r'.backend = r.backend

/-- Every path of the generation begins with a slash. -/
def Rooted (g : Generation) : Prop :=
  ∀ h ∈ g.state.hosts, ∀ r ∈ h.routes, r.path.toList.head? = some '/'

instance (g : Generation) : Decidable g.Rooted := inferInstanceAs
  (Decidable (∀ h ∈ g.state.hosts, ∀ r ∈ h.routes, r.path.toList.head? = some '/'))

/-- **No route is contested where every path begins with a slash.** -/
theorem IsBuilt.uncontested (hg : g.IsBuilt) (hrooted : g.Rooted) {h : Host}
    (hh : h ∈ g.state.hosts) {r : Route} (hr : r ∈ h.routes) (m : MapFile) :
    g.Uncontested m h r := by
  intro h' hh' _ r' hr' hkey
  have hs := hg.sound_state
  obtain ⟨hname, hpath⟩ := Host.eq_of_key_eq (hs.hosts h hh) (hs.hosts h' hh') (hrooted h hh r hr)
    (hrooted h' hh' r' hr') hkey
  obtain rfl : h' = h := List.inj_on_of_nodup_map hs.hostnames hh' hh hname
  obtain rfl : r' = r := List.inj_on_of_nodup_map (hs.hosts h' hh').paths hr' hr hpath
  rfl

/-- **An uncontested route in lower case is reached.** -/
theorem IsBuilt.lookup_route (hg : g.IsBuilt) {h : Host} (hh : h ∈ g.state.hosts) {m : MapFile}
    (hm : m ∈ g.mapsServing h) {r : Route} (hr : r ∈ h.routes) (hlow : IsLowered (h.key r))
    (hun : g.Uncontested m h r) : (m.lookup (h.key r)).map (·.value) = some r.backend := by
  have he : (⟨h.key r, r.backend⟩ : MapEntry) ∈ m.entries :=
    (hg.mem_entries_iff hm).mpr ⟨h, hh, hm, r, hr, rfl⟩
  obtain ⟨found, hmem, hfound, hkey⟩ := MapFile.exists_lookup_key he hlow
  obtain ⟨h', hh', hm', r', hr', rfl⟩ := (hg.mem_entries_iff hm).mp hmem
  rw [hfound, Option.map_some]
  exact congrArg some (hun h' hh' hm' r' hr' hkey)

end Generation

/-! ## Reaching routes -/

/-- **The routes that requests reach.**  A host of a built generation whose stream is not handed on is
served by a map.  In every map that serves it, the key of a route is found by some request exactly if
it has no upper-case letter; the request for the route itself then leads to the backend of the route,
unless another host has a route of the same key.  Paths that begin with a slash rule that out. -/
theorem lowercase_routes_reached {g : Generation} (hg : g.IsBuilt) {h : Host}
    (hh : h ∈ g.state.hosts) (hterm : h.passthrough = false) :
    g.mapsServing h ≠ [] ∧ ∀ m ∈ g.mapsServing h, ∀ r ∈ h.routes,
      ((∃ request found, m.lookup request = some found ∧ found.key = h.key r) ↔
        IsLowered (h.key r)) ∧
      (IsLowered (h.key r) → g.Uncontested m h r →
        (m.lookup (h.key r)).map (·.value) = some r.backend) ∧
      (g.Rooted → g.Uncontested m h r) := by
  refine ⟨hg.mapsServing_ne_nil hterm, fun m hm r hr => ⟨?_, fun hlow hun => ?_, fun hrooted => ?_⟩⟩
  · have he : (⟨h.key r, r.backend⟩ : MapEntry) ∈ m.entries :=
      (hg.mem_entries_iff hm).mpr ⟨h, hh, hm, r, hr, rfl⟩
    exact MapFile.exists_lookup_iff he
  · exact hg.lookup_route hh hm hr hlow hun
  · exact hg.uncontested hrooted hh hr m

/-- Both routes of the host with a certificate. -/
theorem lowercase_routes_reached_market :
    let h : Host := { hostname := "shop.local", certificate := some "shop.pem"
                      routes := [⟨"/", "web"⟩, ⟨"/api", "api"⟩] }
    h ∈ market.state.hosts ∧ h.passthrough = false ∧ market.Rooted ∧ market.mapsServing h ≠ [] ∧
      ∀ m ∈ market.mapsServing h, ∀ r ∈ h.routes, IsLowered (h.key r) ∧
        (m.lookup (h.key r)).map (·.value) = some r.backend := by
  intro h
  have hh : h ∈ market.state.hosts := by decide +kernel
  have hrooted : market.Rooted := by decide +kernel
  have hlow : ∀ r ∈ h.routes, IsLowered (h.key r) := by decide +kernel
  obtain ⟨hserved, hreached⟩ := lowercase_routes_reached isBuilt_market hh rfl
  refine ⟨hh, rfl, hrooted, hserved, fun m hm r hr => ⟨hlow r hr, ?_⟩⟩
  obtain ⟨-, hlookup, huncontested⟩ := hreached m hm r hr
  exact hlookup (hlow r hr) (huncontested hrooted)

/-- A host under a name with a capital letter, and two that spell the same key. -/
def missedState : DesiredState where
  hosts := [
    { hostname := "Web.local", routes := [⟨"/", "web"⟩] },
    { hostname := "shop.local", routes := [⟨"-eu/", "web"⟩] },
    { hostname := "shop.local-eu", routes := [⟨"/", "eu"⟩] }]
  backends := [{ id := "web" }, { id := "eu" }]

/-- **Two of the three routes are missed.**  The request for the first finds nothing, because its key
has a capital letter; the one for the third finds the route of the second host. -/
theorem routes_missed : ∃ g m, (Generation.ofState missedState).build = (.ok (), g) ∧
    (∀ h ∈ g.state.hosts, h.passthrough = false ∧ g.mapsServing h = [m]) ∧
    m.entries = [⟨"Web.local/", "web"⟩, ⟨"shop.local-eu/", "web"⟩, ⟨"shop.local-eu/", "eu"⟩] ∧
    m.lookup "Web.local/" = none ∧
    m.lookup "shop.local-eu/" = some ⟨"shop.local-eu/", "web"⟩ := by
  have hsorted : sortHosts missedState.hosts = missedState.hosts :=
    List.mergeSort_of_pairwise (by decide +kernel)
  have hentries : missedState.describedFrontends.http.hostMap.entries = [⟨"Web.local/", "web"⟩,
      ⟨"shop.local-eu/", "web"⟩, ⟨"shop.local-eu/", "eu"⟩] := by
    rw [DesiredState.describedFrontends, DesiredState.httpEntries, DesiredState.terminatedHosts,
      hsorted]
    decide +kernel
  have hsound : missedState.Sound := by decide +kernel
  refine ⟨missedState.described, missedState.describedFrontends.http.hostMap,
    Generation.build_eq_ok_iff.mpr ⟨hsound.isBuilt, rfl⟩, ?_, hentries, ?_, ?_⟩
  · exact List.forall_mem_cons.mpr ⟨⟨rfl, rfl⟩, List.forall_mem_cons.mpr ⟨⟨rfl, rfl⟩,
      List.forall_mem_singleton.mpr ⟨rfl, rfl⟩⟩⟩
  · rw [MapFile.lookup, hentries]
    decide +kernel
  · rw [MapFile.lookup, hentries]
    decide +kernel

end Rollout
