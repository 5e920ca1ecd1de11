import AlitellmAuth.Litellm.Budget
import AlitellmAuth.Litellm.AccessGroups
import AlitellmAuth.Litellm.Backfill
import AlitellmAuth.OauthAs.DexAgreement
import AlitellmAuth.OauthAs.DeviceAuthenticity
import AlitellmAuth.FrontKey.Mint
import AlitellmAuth.FrontKey.Identity
import AlitellmAuth.OauthAs.Scopes
import AlitellmAuth.Authz.Challenge
import AlitellmAuth.Authz.Keys
import AlitellmAuth.OauthAs.Store
import AlitellmAuth.OauthAs.Consent
import AlitellmAuth.OauthAs.Hints
import AlitellmAuth.Litellm.Churn
import AlitellmAuth.Stats.TopKeys
import AlitellmAuth.OpenWork.Handoff
import AlitellmAuth.OpenWork.Agent
import AlitellmAuth.Authz.Issuers
import AlitellmAuth.Litellm.Existence
import AlitellmAuth.Litellm.Loaded
import AlitellmAuth.OauthAs.Brokers
import AlitellmAuth.OauthAs.Matching
import AlitellmAuth.Session.Leak
import AlitellmAuth.Session.Minted
import AlitellmAuth.Session.Landing
import AlitellmAuth.Ui.Csv
import AlitellmAuth.Ui.Presets
import AlitellmAuth.Ui.KeyForm
import AlitellmAuth.Stats.Series
import AlitellmAuth.Stats.Contract
import AlitellmAuth.Stats.LatencyPage
import AlitellmAuth.Session.Budgets
import AlitellmAuth.OauthAs.UserCodes
import AlitellmAuth.Litellm.UserPages
import AlitellmAuth.Catalog.Exact
import AlitellmAuth.Opencode.Runs
import AlitellmAuth.Opencode.Described
import AlitellmAuth.Opencode.Capabilities
import AlitellmAuth.Guards
import AlitellmAuth.Scripts.Migrate
import AlitellmAuth.FrontKey.Handout
import AlitellmAuth.Gateway
