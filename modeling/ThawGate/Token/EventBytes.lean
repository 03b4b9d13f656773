import ThawGate.Token.Context

/-!
# Events as bytes

What `emit!` logs of an event: the discriminator, which is the first eight bytes of the SHA-256 of `event:` and the
event's name, and the fields in Borsh.
-/

namespace ThawGate.Token

open Borsh

/-- As in the IDL. -/
def Event.discriminator : Event → Bytes
  | .stablecoinInitialized .. => [238, 217, 135, 14, 147, 33, 221, 169]
  | .tokensMinted .. => [207, 212, 128, 194, 175, 54, 64, 24]
  | .tokensBurned .. => [230, 255, 34, 113, 226, 53, 227, 9]
  | .accountFrozen .. => [221, 214, 59, 29, 246, 50, 119, 206]
  | .accountThawed .. => [49, 63, 73, 105, 129, 190, 40, 119]
  | .tokensPaused .. => [82, 231, 96, 206, 65, 209, 120, 40]
  | .tokensUnpaused .. => [130, 126, 142, 2, 141, 161, 243, 215]
  | .authorityTransferred .. => [245, 109, 179, 54, 135, 92, 22, 64]
  | .addedToBlacklist .. => [3, 196, 78, 136, 111, 197, 188, 114]
  | .removedFromBlacklist .. => [55, 136, 25, 65, 199, 36, 146, 33]
  | .tokensSeized .. => [51, 129, 131, 114, 206, 234, 140, 122]
  | .tokenAclEnabled .. => [119, 214, 150, 203, 155, 200, 248, 199]
  | .reserveAttestorSet .. => [100, 112, 135, 14, 59, 118, 196, 107]
  | .reservesAttested .. => [77, 249, 23, 254, 52, 235, 131, 145]
  | .allowlistAdded .. => [102, 147, 146, 236, 103, 153, 16, 151]
  | .allowlistRemoved .. => [47, 69, 78, 173, 196, 109, 163, 172]
  | .confidentialAccountConfigured .. => [123, 117, 217, 151, 45, 14, 147, 26]
  | .pendingBalanceApplied .. => [129, 212, 242, 132, 72, 109, 183, 239]

/-- The fields in the order of the struct. -/
def Event.fields : Event → Bytes
  | .stablecoinInitialized mint authority name symbol decimals permanentDelegate transferHook frozen timestamp mode =>
    mint.1 ++ authority.1 ++ Codec.str.enc name ++ Codec.str.enc symbol ++ Codec.u8.enc decimals ++
      Codec.bool.enc permanentDelegate ++ Codec.bool.enc transferHook ++ Codec.bool.enc frozen ++
      Codec.i64.enc timestamp ++ Codec.u8.enc mode
  | .tokensMinted mint recipient amount minter timestamp =>
    mint.1 ++ recipient.1 ++ Codec.u64.enc amount ++ minter.1 ++ Codec.i64.enc timestamp
  | .tokensBurned mint amount burner timestamp =>
    mint.1 ++ Codec.u64.enc amount ++ burner.1 ++ Codec.i64.enc timestamp
  | .accountFrozen mint target operator timestamp | .accountThawed mint target operator timestamp
  | .removedFromBlacklist mint target operator timestamp =>
    mint.1 ++ target.1 ++ operator.1 ++ Codec.i64.enc timestamp
  | .tokensPaused mint operator timestamp | .tokensUnpaused mint operator timestamp =>
    mint.1 ++ operator.1 ++ Codec.i64.enc timestamp
  | .authorityTransferred mint oldAuthority newAuthority timestamp =>
    mint.1 ++ oldAuthority.1 ++ newAuthority.1 ++ Codec.i64.enc timestamp
  | .addedToBlacklist mint target reason operator timestamp =>
    mint.1 ++ target.1 ++ Codec.str.enc reason ++ operator.1 ++ Codec.i64.enc timestamp
  | .tokensSeized mint source treasury amount seizer timestamp =>
    mint.1 ++ source.1 ++ treasury.1 ++ Codec.u64.enc amount ++ seizer.1 ++ Codec.i64.enc timestamp
  | .tokenAclEnabled mint gatingProgram policyAuthority timestamp =>
    mint.1 ++ gatingProgram.1 ++ policyAuthority.1 ++ Codec.i64.enc timestamp
  | .reserveAttestorSet mint attestor maxStaleness reset timestamp =>
    mint.1 ++ attestor.1 ++ Codec.i64.enc maxStaleness ++ Codec.bool.enc reset ++ Codec.i64.enc timestamp
  | .reservesAttested mint attestor reserves asOf reportUri timestamp =>
    mint.1 ++ attestor.1 ++ Codec.u64.enc reserves ++ Codec.i64.enc asOf ++ Codec.str.enc reportUri ++
      Codec.i64.enc timestamp
  | .allowlistAdded mint wallet timestamp | .allowlistRemoved mint wallet timestamp =>
    mint.1 ++ wallet.1 ++ Codec.i64.enc timestamp
  | .confidentialAccountConfigured mint owner tokenAccount timestamp
  | .pendingBalanceApplied mint owner tokenAccount timestamp =>
    mint.1 ++ owner.1 ++ tokenAccount.1 ++ Codec.i64.enc timestamp

def Event.bytes (e : Event) : Bytes := e.discriminator ++ e.fields

end ThawGate.Token
