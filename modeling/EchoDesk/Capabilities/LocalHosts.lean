import EchoDesk.Capabilities.NetworkContacts
import EchoDesk.Capabilities.Roots
import Mathlib.Data.List.Dedup
import Mathlib.Data.List.DropRight

/-! # The names of hosts

A host text is normalized by taking its brackets and one dot away and mapping what is left. No
local name passes, and what passes is left as it is, when the mapping made a name that nothing
would be taken from.
-/

namespace Capabilities

open EchoDesk Transaction List

variable {lib : Library} {host name : String}
variable {target : NetworkTarget} {ips values : List String} {raw : RawTarget}

/-! ## What a host is called -/

def IsAscii (text : String) : Prop := ∀ c ∈ text.toList, c.toNat < 128

/-- A host text without its brackets and without a dot at the end. -/
def unwrapped (host : String) : String :=
  let cs := host.toList
  let cs := if ['['] <+: cs ∧ [']'] <:+ cs then (cs.drop 1).dropLast else cs
  String.ofList (if ['.'] <:+ cs then cs.dropLast else cs)

/-- A text of the form scheme, host and port leave for the host. -/
def IsHostText (host : String) : Prop :=
  ¬ (host = "" ∨ ∃ c ∈ host.toList, isSpace c ∨ c ∈ ['/', '?', '#', '@'])

/-- The name of a host: an address as `ipaddress` writes it, any other text as IDNA maps it. -/
def hostName? (lib : Library) (host : String) : Option String :=
  match lib.ipAddress (unwrapped host) with
  | some address => some address.compressed
  | none => (lib.idna (unwrapped host)).map lib.lower

/-- The labels of a name that a dot follows. -/
def innerLabels (name : String) : List (List Char) := (name.toList.splitOn '.').dropLast

/-- What the library is documented to do with hosts: `ipaddress` reads what it writes, and writes
no brackets and no dot around an address; IDNA maps to ASCII and leaves ASCII names as they are,
which must not have an empty label; and ASCII letters are lowered one by one. -/
structure Library.MapsHosts (lib : Library) : Prop where
  ipAddress_compressed : ∀ text address, lib.ipAddress text = some address →
    lib.ipAddress address.compressed = some address
  ipAddress_unwrapped : ∀ text address, lib.ipAddress text = some address →
    text = unwrapped address.compressed → text = address.compressed
  idna_ascii : ∀ text name, lib.idna text = some name → IsAscii name
  idna_of_ascii : ∀ text name, IsAscii text → lib.idna text = some name →
    name = text ∧ [] ∉ innerLabels text
  idna_lower : ∀ text name, lib.idna text = some name → [] ∉ innerLabels (lib.lower name) →
    lib.idna (lib.lower name) = some (lib.lower name)
  lower_ascii : ∀ text, IsAscii text → lib.lower text = String.ofList (text.toList.map Char.toLower)

/-- The names that the names of local hosts end in. -/
def IsLocalText (name : String) : Prop :=
  name = "localhost" ∨
    ∃ suffix ∈ [".local", ".internal", ".localhost"], suffix.toList <:+ name.toList

/-- A name that is local, whatever dots it ends in. -/
def IsLocal (lib : Library) (name : String) : Prop :=
  let bare := String.ofList (name.toList.rdropWhile fun c => c = '.')
  IsLocalText bare ∨ ∃ address, lib.ipAddress bare = some address ∧ address.isGlobal = false

/-- A name from which nothing is taken when it is a host text: it is in no brackets and ends in no
dot, no label of it is empty, and an address is written as `ipaddress` writes it and has no zone
like a local name. -/
structure IsPlain (lib : Library) (name : String) : Prop where
  hostText : IsHostText name
  unwrapped : unwrapped name = name
  labels : lib.ipAddress name = none → [] ∉ innerLabels name
  address : ∀ address, lib.ipAddress name = some address →
    address.compressed = name ∧ ¬ IsLocalText name

/-- What is promised of a target that is accepted. -/
structure Authorizable (lib : Library) (host : String) (target : NetworkTarget) : Prop where
  notLocal : ∀ name, hostName? lib host = some name → ¬ IsLocal lib name
  verified : ∀ ip ∈ target.verifiedIps, isGlobal lib ip = true
  again : normalizeNetworkTarget lib
    ⟨target.scheme, target.host, some target.port, target.verifiedIps⟩ = .ok target

/-! ## Normal hosts -/

/-- A letter that is lowered is ASCII still, and lower. -/
theorem toLower_ascii {c : Char} (h : c.toNat < 128) :
    c.toLower.toNat < 128 ∧ c.toLower.toLower = c.toLower := by
  have hall : ∀ n < 128, (Char.ofNat n).toLower.toNat < 128 ∧
      (Char.ofNat n).toLower.toLower = (Char.ofNat n).toLower := by decide
  have hc := hall c.toNat h
  rwa [Char.ofNat_toNat] at hc

theorem normalizeHost_eq_ok : normalizeHost lib host = .ok name ↔
    IsHostText host ∧ hostName? lib host = some name := by
  unfold IsHostText
  by_cases hbad : host = "" ∨ ∃ c ∈ host.toList, isSpace c ∨ c ∈ ['/', '?', '#', '@']
  · unfold normalizeHost
    rw [if_pos hbad]
    exact ⟨fun h => (by cases h), fun h => absurd hbad h.1⟩
  rw [and_iff_right hbad]
  simp only [normalizeHost, if_neg hbad, hostName?, unwrapped]
  generalize lib.ipAddress (String.ofList _) = address, lib.idna (String.ofList _) = mapped
  cases address with
  | some address => simp
  | none => cases mapped <;> simp

/-- What is answered for the host of a target: whether its addresses are to be verified. -/
def requiresVerification (lib : Library) (host : String) (ips : List String) :
    Except PolicyInputError Bool :=
  match lib.ipAddress host with
  | some address =>
    if address.isGlobal then .ok false
    else .error ⟨.networkSsrfBlocked, "non-public literal address is blocked"⟩
  | none =>
    if isLocalName host then .error ⟨.networkSsrfBlocked, "local hostname is blocked"⟩
    else .ok (ips = [] : Bool)

/-- What a target that is accepted was made of. -/
theorem normalizeNetworkTarget_eq_ok : normalizeNetworkTarget lib raw = .ok target ↔
      (lib.lower (strip raw.scheme) = target.scheme ∧
        (target.scheme = "http" ∨ target.scheme = "https")) ∧
      normalizeHost lib raw.host = .ok target.host ∧
      normalizeVerifiedIps lib raw.verifiedIps = .ok target.verifiedIps ∧
      requiresVerification lib target.host target.verifiedIps =
        .ok target.hostVerificationRequired ∧
      (raw.port.getD (if target.scheme = "https" then 443 else 80) = target.port ∧
        1 ≤ target.port ∧ target.port ≤ 65535) := by
  have hform : normalizeNetworkTarget lib raw =
      (if ¬ (lib.lower (strip raw.scheme) = "http" ∨ lib.lower (strip raw.scheme) = "https") then
        .error ⟨.networkSchemeNotAllowed, "only http and https are supported"⟩
      else do
        let host ← normalizeHost lib raw.host
        let ips ← normalizeVerifiedIps lib raw.verifiedIps
        let required ← requiresVerification lib host ips
        let port := raw.port.getD (if lib.lower (strip raw.scheme) = "https" then 443 else 80)
        if 1 ≤ port ∧ port ≤ 65535 then
          return ⟨lib.lower (strip raw.scheme), host, port, ips, required⟩
        else .error ⟨.invalidInput, "network port must be in 1..65535"⟩) := by
    unfold normalizeNetworkTarget requiresVerification
    dsimp only
    congr! 5 with _ _ host ips
    cases lib.ipAddress host with
    | some address => cases hglobal : address.isGlobal <;> simp [hglobal]
    | none => cases hlocal : isLocalName host <;> simp
  rw [hform]
  constructor
  · intro h
    split at h
    · cases h
    rename_i hscheme
    obtain ⟨host, hhost, h⟩ := bind_eq_ok.1 h
    obtain ⟨ips, hips, h⟩ := bind_eq_ok.1 h
    obtain ⟨required, hrequired, h⟩ := bind_eq_ok.1 h
    dsimp only at h
    by_cases hport : 1 ≤ raw.port.getD (if lib.lower (strip raw.scheme) = "https" then 443 else 80) ∧
        raw.port.getD (if lib.lower (strip raw.scheme) = "https" then 443 else 80) ≤ 65535
    · rw [if_pos hport] at h
      cases h
      exact ⟨⟨rfl, not_not.1 hscheme⟩, hhost, hips, hrequired, rfl, hport⟩
    · rw [if_neg hport] at h
      cases h
  · obtain ⟨scheme, host, port, ips, required⟩ := target
    rintro ⟨⟨hlower, hscheme⟩, hhost, hips, hrequired, hport, hrange⟩
    dsimp only at *
    rw [hlower, if_neg (not_not.2 hscheme), hhost, hips]
    show (requiresVerification lib host ips >>= _) = _
    rw [hrequired, hport]
    exact if_pos hrange

/-! ## Verified addresses -/

theorem exists_verified (h : normalizeVerifiedIps lib values = .ok ips) {ip : String}
    (hip : ip ∈ ips) :
    ∃ text address, lib.ipAddress text = some address ∧ address.isGlobal = true ∧
      address.compressed = ip := by
  obtain ⟨raw, hraw, h⟩ := bind_eq_ok.1 h
  cases h
  rw [mem_insertionSort, mem_dedup] at hip
  obtain ⟨value, -, hvalue⟩ := mem_of_mapM_ok hraw hip
  unfold normalizeVerifiedIp at hvalue
  split at hvalue
  · cases hvalue
  rename_i address haddress
  split at hvalue
  · rename_i hglobal
    exact ⟨value, address, haddress, hglobal, Except.ok.inj hvalue⟩
  · cases hvalue

theorem normalizeVerifiedIps_again (hlib : lib.MapsHosts)
    (h : normalizeVerifiedIps lib values = .ok ips) : normalizeVerifiedIps lib ips = .ok ips := by
  have hsame : ∀ ip ∈ ips, normalizeVerifiedIp lib ip = .ok ip := by
    intro ip hip
    obtain ⟨text, address, haddress, hglobal, rfl⟩ := exists_verified h hip
    unfold normalizeVerifiedIp
    rw [hlib.ipAddress_compressed text address haddress]
    exact if_pos hglobal
  obtain ⟨raw, -, h⟩ := bind_eq_ok.1 h
  have hsorted : ips.Pairwise fun a b => a ≤ b := by
    cases h
    exact pairwise_insertionSort _ _
  have hnodup : ips.Nodup := by
    cases h
    exact (perm_insertionSort _ _).nodup_iff.2 (nodup_dedup raw)
  unfold normalizeVerifiedIps
  rw [mapM_of_fixed hsame]
  show Except.ok (ips.dedup.insertionSort _) = _
  rw [hnodup.dedup, hsorted.insertionSort_eq]

/-! ## The name of a host is a host -/

theorem unwrapped_sublist (host : String) : (unwrapped host).toList.Sublist host.toList := by
  unfold unwrapped
  dsimp only
  rw [String.toList_ofList]
  split <;> split
  · exact (dropLast_sublist _).trans ((dropLast_sublist _).trans (drop_sublist _ _))
  · exact (dropLast_sublist _).trans (drop_sublist _ _)
  · exact dropLast_sublist _
  · exact List.Sublist.refl _

/-- A text that ends in a dot loses it. -/
theorem no_dot_of_unwrapped (h : unwrapped name = name) : ¬ ['.'] <:+ name.toList := by
  intro hdot
  obtain ⟨front, hfront⟩ := hdot
  have hlength := congrArg (fun s => s.toList.length) h
  unfold unwrapped at hlength
  simp only [String.toList_ofList, ← hfront] at hlength
  simp at hlength

theorem bare_of_unwrapped (h : unwrapped name = name) :
    String.ofList (name.toList.rdropWhile fun c => c = '.') = name := by
  have hbare : (name.toList.rdropWhile fun c => c = '.') = name.toList := by
    rw [rdropWhile_eq_self_iff]
    intro hne hlast
    apply no_dot_of_unwrapped h
    refine ⟨name.toList.dropLast, ?_⟩
    rw [← of_decide_eq_true hlast, dropLast_concat_getLast hne]
  rw [hbare, String.ofList_toList]

theorem lower_lower (hlib : lib.MapsHosts) {text : String} (h : IsAscii text) :
    IsAscii (lib.lower text) ∧ lib.lower (lib.lower text) = lib.lower text ∧
      (lib.lower text).toList.length = text.toList.length := by
  have hascii : IsAscii (lib.lower text) := by
    intro c hc
    rw [hlib.lower_ascii text h, String.toList_ofList] at hc
    obtain ⟨d, hd, rfl⟩ := mem_map.1 hc
    exact (toLower_ascii (h d hd)).1
  refine ⟨hascii, ?_, ?_⟩
  · rw [hlib.lower_ascii _ hascii, hlib.lower_ascii text h, String.toList_ofList, map_map]
    exact congrArg String.ofList (map_congr_left fun c hc => (toLower_ascii (h c hc)).2)
  · rw [hlib.lower_ascii text h, String.toList_ofList, length_map]

/-- A plain name is its own. -/
theorem hostName?_of_isPlain (hlib : lib.MapsHosts) (hname : hostName? lib host = some name)
    (h : IsPlain lib name) : hostName? lib name = some name := by
  unfold hostName?
  rw [h.unwrapped]
  cases haddress : lib.ipAddress name with
  | some address => exact congrArg some (h.address address haddress).1
  | none =>
    unfold hostName? at hname
    split at hname
    · rename_i address hwrapped
      rw [← Option.some.inj hname, hlib.ipAddress_compressed _ _ hwrapped] at haddress
      cases haddress
    · obtain ⟨mapped, hmapped, rfl⟩ := Option.map_eq_some_iff.1 hname
      rw [hlib.idna_lower _ _ hmapped (h.labels haddress), Option.map_some,
        (lower_lower hlib (hlib.idna_ascii _ _ hmapped)).2.1]

/-- A name that is its own is in no brackets and ends in no dot, and has no empty label. -/
theorem unwrapped_of_hostName? (hlib : lib.MapsHosts) (h : hostName? lib name = some name) :
    unwrapped name = name ∧ (lib.ipAddress name = none → [] ∉ innerLabels name) := by
  unfold hostName? at h
  split at h
  · rename_i address haddress
    rw [← Option.some.inj h] at haddress ⊢
    have hsame := hlib.ipAddress_unwrapped _ _ haddress rfl
    refine ⟨hsame, fun hnone => ?_⟩
    rw [← hsame, haddress] at hnone
    cases hnone
  obtain ⟨mapped, hmapped, hlower⟩ := Option.map_eq_some_iff.1 h
  obtain ⟨hascii, -, hlength⟩ := lower_lower hlib (hlib.idna_ascii _ _ hmapped)
  rw [hlower] at hascii hlength
  have hsub := unwrapped_sublist name
  obtain ⟨rfl, hlabels⟩ := hlib.idna_of_ascii _ _ (fun c hc => hascii c (hsub.subset hc)) hmapped
  have hsame := String.toList_injective (hsub.eq_of_length hlength.symm)
  rw [hsame] at hlabels
  exact ⟨hsame, fun _ => hlabels⟩

/-! ## What is promised -/

theorem requiresVerification_ok (h : requiresVerification lib name ips = .ok required) :
    (∀ address, lib.ipAddress name = some address → address.isGlobal = true) ∧
      (lib.ipAddress name = none → isLocalName name = false) := by
  unfold requiresVerification at h
  split at h
  · rename_i address haddress
    rw [haddress]
    split at h
    · rename_i hglobal
      exact ⟨fun _ heq => Option.some.inj heq ▸ hglobal, fun hnone => (by cases hnone)⟩
    · cases h
  rename_i haddress
  rw [haddress]
  split at h
  · cases h
  · rename_i hlocal
    exact ⟨fun _ heq => (by cases heq), fun _ => eq_false_of_ne_true hlocal⟩

theorem isLocalName_of_isLocalText (h : IsLocalText name) : isLocalName name = true := by
  refine decide_eq_true (h.imp_left ?_)
  rintro rfl
  exact mem_cons_self

theorem authorizable_iff (hlib : lib.MapsHosts) (h : normalizeNetworkTarget lib raw = .ok target) :
    Authorizable lib raw.host target ↔ IsPlain lib target.host := by
  obtain ⟨⟨-, hscheme⟩, hhost, hips, hrequired, -, hrange⟩ := normalizeNetworkTarget_eq_ok.1 h
  obtain ⟨hglobal, hlocal⟩ := requiresVerification_ok hrequired
  have hname := (normalizeHost_eq_ok.1 hhost).2
  constructor
  · intro hkept
    obtain ⟨-, hagain, -⟩ := normalizeNetworkTarget_eq_ok.1 hkept.again
    obtain ⟨htext, hsame⟩ := normalizeHost_eq_ok.1 hagain
    obtain ⟨hunwrapped, hlabels⟩ := unwrapped_of_hostName? hlib hsame
    refine ⟨htext, hunwrapped, hlabels, fun address haddress => ⟨?_, fun htext => ?_⟩⟩
    · unfold hostName? at hsame
      rw [hunwrapped, haddress] at hsame
      exact Option.some.inj hsame
    · refine hkept.notLocal _ hname (.inl ?_)
      rwa [bare_of_unwrapped hunwrapped]
  intro hplain
  refine ⟨fun name hname' => ?_, fun ip hip => ?_, ?_⟩
  · obtain rfl : target.host = name := Option.some.inj (hname.symm.trans hname')
    unfold IsLocal
    rw [bare_of_unwrapped hplain.unwrapped]
    rintro (htext | ⟨address, haddress, hnot⟩)
    · cases haddress : lib.ipAddress target.host with
      | some address => exact (hplain.address address haddress).2 htext
      | none =>
        have := isLocalName_of_isLocalText htext
        rw [hlocal haddress] at this
        cases this
    · rw [hglobal address haddress] at hnot
      cases hnot
  · obtain ⟨text, address, haddress, hglobal, rfl⟩ := exists_verified hips hip
    unfold isGlobal
    rw [hlib.ipAddress_compressed _ _ haddress]
    exact hglobal
  · refine normalizeNetworkTarget_eq_ok.2 ⟨⟨?_, hscheme⟩, ?_, ?_, hrequired, rfl, hrange⟩
    · show lib.lower (strip target.scheme) = target.scheme
      have hsame : strip "http" = "http" ∧ strip "https" = "https" := by decide
      rcases hscheme with heq | heq
      · rw [heq, hsame.1, hlib.lower_ascii _ (by unfold IsAscii; decide)]
        decide
      · rw [heq, hsame.2, hlib.lower_ascii _ (by unfold IsAscii; decide)]
        decide
    · exact normalizeHost_eq_ok.2 ⟨hplain.hostText, hostName?_of_isPlain hlib hname hplain⟩
    · exact normalizeVerifiedIps_again hlib hips

/-- Exactly which targets, roots and requests are left as they are, and exactly which targets are
public: those whose name nothing is taken from, and all but device paths. -/
theorem normal_iff (lib : Library) (hlib : lib.MapsHosts) :
    (∀ raw target, normalizeNetworkTarget lib raw = .ok target → (Authorizable lib raw.host target ↔
        ∀ name, hostName? lib raw.host = some name → IsPlain lib name)) ∧
    (∀ text platform root, normalizePathRoot text platform = .ok root →
      (normalizePathRoot root.root root.platform.value = .ok root ↔
        ¬ (platform = "windows" ∧ isDevice text.toList))) ∧
    (∀ text platform request, normalizePathRequest text platform = .ok request →
      (normalizePathRequest request.path request.platform.value = .ok request ↔
        ¬ (platform = "windows" ∧ isDevice text.toList))) := by
  have hroot : ∀ text platform root, normalizePathRoot text platform = .ok root →
      (normalizePathRoot root.root root.platform.value = .ok root ↔
        ¬ (platform = "windows" ∧ isDevice text.toList)) := by
    intro text platform root h
    rw [normalizePathRoot_again_iff h, and_iff_left rfl,
      parsePlatform_eq_ok (normalizePathRoot_eq_ok h).1]
    cases root.platform <;> simp [Platform.value]
  refine ⟨fun raw target h => ?_, hroot, fun text platform request h => ?_⟩
  · rw [authorizable_iff hlib h]
    obtain ⟨-, hhost, -⟩ := normalizeNetworkTarget_eq_ok.1 h
    rw [(normalizeHost_eq_ok.1 hhost).2]
    exact ⟨fun hplain name heq => Option.some.inj heq ▸ hplain, fun hplain => hplain _ rfl⟩
  obtain ⟨root, hnormal, h⟩ := bind_eq_ok.1 h
  cases h
  rw [← hroot text platform root hnormal]
  constructor
  · intro hagain
    obtain ⟨root', hnormal', h⟩ := bind_eq_ok.1 hagain
    obtain ⟨hplatform, hpath⟩ := PathRequest.mk.inj (Except.ok.inj h)
    have hsame : root' = root := PathRoot.mk.injEq .. ▸ ⟨hplatform, hpath⟩
    rwa [hsame] at hnormal'
  · intro hagain
    exact bind_eq_ok.2 ⟨root, hagain, rfl⟩

/-! ## An accepted spelling of a local host -/

/-- The library on ASCII host texts, with two addresses. -/
def hostLibrary : Library :=
  { Library.ascii [("93.184.216.34", .ofGlobal "93.184.216.34"),
      ("127.0.0.1", { IpAddress.ofGlobal "127.0.0.1" with isGlobal := false })] with
    idna := fun text =>
      if text.toList.all (·.toNat < 128) && (innerLabels text).all (!·.isEmpty) then some text
      else none }

theorem hostLibrary_mapsHosts : hostLibrary.MapsHosts := by
  have hidna : ∀ text name, hostLibrary.idna text = some name ↔
      (IsAscii text ∧ [] ∉ innerLabels text) ∧ text = name := by
    intro text name
    show (if _ then _ else _) = _ ↔ _
    rw [Option.ite_none_right_eq_some, Option.some_inj, Bool.and_eq_true, all_eq_true, all_eq_true]
    have hinner : (∀ label ∈ innerLabels text, (!label.isEmpty) = true) ↔
        [] ∉ innerLabels text := by
      simp only [Bool.not_eq_true', isEmpty_eq_false_iff]
      exact ⟨fun h hmem => h [] hmem rfl, fun h label hmem heq => h (heq ▸ hmem)⟩
    rw [hinner]
    simp [IsAscii]
  have haddress : ∀ text address, hostLibrary.ipAddress text = some address →
      text = address.compressed := by
    intro text address h
    obtain ⟨front, back, hentries, -⟩ := lookup_eq_some_iff.1 h
    have hmem : (text, address) ∈ front ++ (text, address) :: back := by simp
    rw [← hentries] at hmem
    rcases mem_cons.1 hmem with heq | hmem
    · cases heq
      rfl
    · cases mem_singleton.1 hmem
      rfl
  refine ⟨?_, ?_, ?_, ?_, ?_, fun _ _ => rfl⟩
  · intro text address h
    rwa [← haddress text address h]
  · intro text address h _
    exact haddress text address h
  · intro text name h
    obtain ⟨⟨hascii, -⟩, rfl⟩ := (hidna text name).1 h
    exact hascii
  · intro text name _ h
    obtain ⟨⟨-, hlabels⟩, rfl⟩ := (hidna text name).1 h
    exact ⟨rfl, hlabels⟩
  intro text name h hlabels
  obtain ⟨⟨hascii, -⟩, rfl⟩ := (hidna text name).1 h
  refine (hidna _ _).2 ⟨⟨?_, hlabels⟩, rfl⟩
  intro c hc
  have hc' : c ∈ text.toList.map Char.toLower := by simpa [hostLibrary, Library.ascii] using hc
  obtain ⟨d, hd, rfl⟩ := mem_map.1 hc'
  exact (toLower_ascii (hascii d hd)).1

/-- A second dot hides the name of the local host. -/
theorem localhost_accepted : ¬ ∀ (lib : Library), lib.MapsHosts → ∀ raw target,
    normalizeNetworkTarget lib raw = .ok target → Authorizable lib raw.host target := by
  intro h
  have hkept := h hostLibrary hostLibrary_mapsHosts ⟨"http", "localhost..", none, []⟩
    ⟨"http", "localhost.", 80, [], true⟩ (by decide +kernel)
  apply hkept.notLocal "localhost." (by decide +kernel)
  left
  left
  decide +kernel

theorem normal_iff_example : Authorizable hostLibrary "WWW.Example."
    ⟨"https", "www.example", 443, ["93.184.216.34"], false⟩ := by
  refine ((normal_iff hostLibrary hostLibrary_mapsHosts).1
    ⟨"HTTPS", "WWW.Example.", none, ["93.184.216.34"]⟩ _ (by decide +kernel)).2 ?_
  intro name hname
  have hwww : hostName? hostLibrary "WWW.Example." = some "www.example" := by decide +kernel
  obtain rfl : "www.example" = name := Option.some.inj (hwww.symm.trans hname)
  refine ⟨?_, by decide +kernel, fun _ => by decide +kernel, ?_⟩
  · unfold IsHostText
    decide +kernel
  intro address haddress
  have hnone : hostLibrary.ipAddress "www.example" = none := by decide +kernel
  rw [hnone] at haddress
  cases haddress

end Capabilities
