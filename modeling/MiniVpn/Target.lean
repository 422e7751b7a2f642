import MiniVpn.FakeIp
/-!
# Where an intercepted flow goes

`resolve_target` of `client_tun.rs` with the lists of `dns_block.rs`: a fake-IP
is turned back into its domain, encrypted DNS is blocked, anything else is
forwarded to the address the app dialled.
-/
open Lib

namespace MiniVpn

/-! ## Encrypted DNS endpoints -/

def is_encrypted_dns_port (port : UInt16) : Bool := port == 853

def is_dns_relay_port (port : UInt16) : Bool := port == 53 || is_encrypted_dns_port port

def DOH_DOMAINS : List String :=
  ["dns.google", "dns.google.com", "dns64.dns.google", "cloudflare-dns.com", "mozilla.cloudflare-dns.com",
   "chrome.cloudflare-dns.com", "one.one.one.one", "dns.quad9.net", "dns11.quad9.net", "dns10.quad9.net",
   "doh.opendns.com", "dns.adguard-dns.com", "dns.adguard.com", "doh.cleanbrowsing.org", "doh.dns.sb",
   "dns.nextdns.io"]

def DOH_IPS : List Ipv4Addr :=
  [ipv4 1 1 1 1, ipv4 1 0 0 1, ipv4 8 8 8 8, ipv4 8 8 4 4, ipv4 9 9 9 9, ipv4 149 112 112 112,
   ipv4 208 67 222 222, ipv4 208 67 220 220, ipv4 94 140 14 14, ipv4 94 140 15 15]

/-- `str::trim_end_matches` with one character. -/
def trim_end_matches (d : List Char) (c : Char) : List Char := (d.reverse.dropWhile (· == c)).reverse

/-- `str::strip_suffix`: what stands before the suffix. -/
def strip_suffix (d suffix : List Char) : Option (List Char) :=
  if suffix.isSuffixOf d then some (d.take (d.length - suffix.length)) else none

def is_doh_domain (domain : String) : Bool :=
  let d := (trim_end_matches domain.toList '.').map Char.toLower
  DOH_DOMAINS.any fun doh =>
    d == doh.toList || (strip_suffix d doh.toList).any fun p => p.getLast? == some '.'

def is_doh_ip (ip : Ipv4Addr) : Bool := DOH_IPS.contains ip

/-! ## Resolving a target -/

def target_from_endpoint (endpoint : IpEndpoint) : TargetAddr := .IpPort (.v4 endpoint.addr endpoint.port)

inductive TargetResolve where
  | Direct (target : TargetAddr) (fake_ip : Option Ipv4Addr)
  | Refuse
  | Block
deriving DecidableEq, Repr

def resolve_target (endpoint : IpEndpoint) (fake_pool : FakeIpPool) : TargetResolve :=
  if is_dns_relay_port endpoint.port then .Block
  else if fake_pool.is_fake endpoint.addr then
    match fake_pool.resolve endpoint.addr with
    | some domain =>
      if endpoint.port == 443 && is_doh_domain domain then .Block
      else .Direct (.DomainPort domain endpoint.port) (some endpoint.addr)
    | none => .Refuse
  else if endpoint.port == 443 && is_doh_ip endpoint.addr then .Block
  else .Direct (target_from_endpoint endpoint) none

/-- A flow is let through to the name of its fake-IP, or to the address dialled. -/
theorem resolve_target_direct {endpoint : IpEndpoint} {fake_pool : FakeIpPool} {target : TargetAddr}
    {fake_ip : Option Ipv4Addr} (h : resolve_target endpoint fake_pool = .Direct target fake_ip) :
    (∃ domain, fake_pool.resolve endpoint.addr = some domain ∧ target = .DomainPort domain endpoint.port ∧
      fake_ip = some endpoint.addr) ∨
    (fake_pool.is_fake endpoint.addr = false ∧ target = target_from_endpoint endpoint ∧ fake_ip = none) := by
  unfold resolve_target at h
  split at h
  · cases h
  · split at h
    · split at h
      · rename_i domain hres
        split at h
        · cases h
        · cases h
          exact .inl ⟨domain, hres, rfl, rfl⟩
      · cases h
    · rename_i hfake
      split at h
      · cases h
      · cases h
        exact .inr ⟨by simpa using hfake, rfl, rfl⟩

end MiniVpn
