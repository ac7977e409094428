import Mergepay.Money.Stroops

namespace Mergepay.Money

inductive Network
  | testnet
  | publicNet
  deriving DecidableEq

inductive AssetType
  | native
  | issued
  deriving DecidableEq

-- What the asset registry depends on: two configuration values, and the key check of the Stellar SDK.
structure Registry where
  stableAssetIssuer       : String
  stellarNetwork          : Network
  isValidEd25519PublicKey : String → Bool

structure ValidatedAsset where
  code   : String
  type   : AssetType
  issuer : Option String
  name   : String
  deriving DecidableEq

-- A supported asset is restricted to a single network, or valid on all of them (`none`).
structure SupportedAsset extends ValidatedAsset where
  network : Option Network
  deriving DecidableEq

-- The empty string counts as absent wherever the source tests a string for truth.
def present (s : String) : Option String :=
  if s = "" then none else some s

-- Apart from ASCII letters, only these two characters have an ASCII letter as upper case.
def toUpperCase (s : String) : String :=
  .ofList <| s.toList.map fun
    | 'ſ' => 'S'
    | 'ı' => 'I'
    | c   => c.toUpper

def trimmed (s : String) : String :=
  .ofList <| Text.trim s.toList

-- The grouping key of an asset. Neither the code nor the issuer is trimmed here.
def balanceAssetKey (assetCode : String) (assetIssuer : Option String) : String :=
  toUpperCase assetCode ++ "::" ++ assetIssuer.getD ""

namespace Registry

variable (R : Registry)

def supportedAssets : List SupportedAsset := [
  { code := "XLM", type := .native, issuer := none, name := "Stellar Lumens", network := none },
  { code := "USDC", type := .issued, issuer := present R.stableAssetIssuer, name := "USD Coin",
    network := some .publicNet }
]

def byCode (code : String) : Option SupportedAsset :=
  R.supportedAssets.find? (toUpperCase ·.code = code)

def byCodeIssuer (key : String) : Option SupportedAsset :=
  R.supportedAssets.find? fun a => balanceAssetKey a.code a.issuer = key

def networkName : Network → String
  | .testnet   => "testnet"
  | .publicNet => "public"

def assertNetwork (asset : SupportedAsset) : Except Failure Unit :=
  match asset.network with
  | none   => .ok ()
  | some n =>
    if n = R.stellarNetwork then .ok () else
      .error <| .badRequest "invalid_asset" <|
        "\"" ++ asset.code ++ "\" is not available on the " ++ networkName R.stellarNetwork ++
        " network (valid on: " ++ networkName n ++ ")"

def invalidAsset (reason : RejectionReason) (message : String) : Except ValidationError α :=
  .error { reason, message, code := "INVALID_ASSET" }

def accept (asset : SupportedAsset) : Except Failure (Except ValidationError ValidatedAsset) := do
  R.assertNetwork asset
  return .ok asset.toValidatedAsset

-- The part of `validateAsset` that goes by the code alone.
def validateByCode (code : String) (issuer : Option String) :
    Except Failure (Except ValidationError ValidatedAsset) :=
  match R.byCode (trimmed (toUpperCase code)) with
  | none => return invalidAsset .unsupportedCode <|
      "Unsupported asset code \"" ++ code ++ "\". Supported codes: " ++
      ", ".intercalate (R.supportedAssets.map (toUpperCase ·.code))
  | some entry => match entry.type, issuer, entry.issuer with
    | .native, some _, _ => return invalidAsset .nativeWithIssuer <|
        "\"" ++ entry.code ++ "\" is a native asset and does not take an issuer"
    | .issued, none, none => return invalidAsset .issuedWithoutIssuer <|
        "\"" ++ code ++ "\" issuer is not configured. Set STABLE_ASSET_ISSUER or provide an issuer."
    | .issued, some i, some expected =>
      if trimmed i ≠ expected then
        return invalidAsset .issuerMismatch <|
          "\"" ++ code ++ "\" issuer mismatch. Expected " ++ expected ++ ", got " ++ i
      else
        R.accept entry
    | _, _, _ => R.accept entry

-- Some rejections are returned, but an asset of the wrong network raises.
def validateAsset (code : String) (assetIssuer : Option String) :
    Except Failure (Except ValidationError ValidatedAsset) :=
  let upper := trimmed (toUpperCase code)
  let issuer := assetIssuer.bind present
  if upper = "" then
    return invalidAsset .unsupportedCode "Asset code is required"
  else match issuer with
    | none => R.validateByCode code none
    | some i =>
      if ¬R.isValidEd25519PublicKey (trimmed i) then
        return invalidAsset .invalidIssuerFormat <|
          "\"" ++ i ++ "\" is not a valid Stellar public key"
      else match R.byCodeIssuer (upper ++ "::" ++ trimmed i) with
        | some exact => R.accept exact
        | none       => R.validateByCode code issuer

def isSupportedAsset (code : String) (issuer : Option String) : Except Failure Bool :=
  return (← R.validateAsset code issuer).isOk

def assertSupportedSettlementAsset (assetCode : String) (assetIssuer : Option String) :
    Except Failure Unit := do
  if ¬(← R.isSupportedAsset assetCode assetIssuer) then
    throw <| .engine .unsupportedAsset <|
      "Unsupported settlement asset \"" ++ assetCode ++ "\"" ++
        match assetIssuer.bind present with
        | some i => " (issuer " ++ i ++ ")"
        | none   => ""

-- The lookup of the asset service, which raises all rejections.
def getAssetConfig (code : String) (issuer : Option String) : Except Failure ValidatedAsset := do
  match ← R.validateAsset code issuer with
  | .ok asset => return asset
  | .error e  => throw <| .badRequest "invalid_asset" e.message

def validateIssuer (issuer : String) : Except Failure Unit :=
  if R.isValidEd25519PublicKey issuer then .ok () else
    .error <| .badRequest "invalid_asset" <| "\"" ++ issuer ++ "\" is not a valid Stellar public key"

-- The validation of the asset service. Other than the registry, it does not trim the issuer.
def validateAssetSpec (code : String) (issuer : Option String) : Except Failure ValidatedAsset := do
  if let some issuer := issuer.bind present then
    R.validateIssuer issuer
  R.getAssetConfig code issuer

end Registry
end Mergepay.Money
