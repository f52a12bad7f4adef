import Mes.Transact.Prog
import Mes.Transact.Store
import Mes.Transact.Statement
import Mes.Transact.Frame
import Mes.Transact.World
import Mes.Transact.Rely
import Mes.Transact.Rules
import Mes.Transact.Soundness
import Mes.Transact.Sql
import Mes.Common.Errors
import Mes.Schema
import Mes.Server
import Mes.Repositories
import Mes.Auth.AuthService
import Mes.Invitations.InvitationsService
import Mes.Purchases.PurchasesService
import Mes.Backend
import Mes.Auth.TokenFamilies
import Mes.Auth.TokenCommit
import Mes.Auth.TokenLogic
import Mes.Auth.TokenRules
import Mes.Auth.RefreshRules
import Mes.Auth.TokenPrograms
import Mes.Auth.TokenChains
import Mes.Auth.LogoutRace
import Mes.Auth.RefreshAlone
import Mes.Auth.RefreshDuel
import Mes.Lessons.Enumeration
import Mes.Auth.SignupSolo
import Mes.Common.ThrottlerGuard
import Mes.Notifications.InvitationEmailProcessor
import Mes.Transact.Machine
import Mes.Web.EventLoop
import Mes.Web.SingleFlight
import Mes.Web.LogoutGuard
import Mes.Web.Identity
import Mes.Transact.Revision
import Mes.Auth.TokenRetention
import Mes.Shop.Shop
import Mes.Shop.ShopLogic
import Mes.Shop.ShopRules
import Mes.Shop.PurchaseProof
import Mes.Shop.RedeemProof
import Mes.Shop.RedeemCall
import Mes.Shop.ListingProof
import Mes.Shop.ShopRuns
import Mes.Shop.Idempotency
import Mes.Shop.Integrity
import Mes.Shop.DuplicatePurchases
import Mes.Shop.RedeemOnce
import Mes.Shop.RedeemAlone
import Mes.Shop.RedeemTable
import Mes.Admin.AdminService
import Mes.Auth.MaskIp
import Mes.Transact.Pinned
import Mes.Auth.GracePath
import Mes.Web.ApiRequest
import Mes.Js.Number
import Mes.Js.Json
import Mes.Js.Objects
import Mes.Common.CanonicaliseBody
import Mes.Shop.BodyMismatch
import Mes.Web.Checkout
import Mes.Common.Validation
import Mes.Common.RequestBodies
import Mes.Common.SchemaSync
import Mes.Js.Uri
import Mes.Web.Router
import Mes.Web.RoutePaths
import Mes.Js.Base64
import Mes.Web.DecodeJwtPayload
import Mes.Auth.BearerToken
import Mes.Common.OriginAllowedGuard
import Mes.Js.Integers
import Mes.Auth.JwtLifetime
import Mes.Transact.Sweep
import Mes.Transact.Lockstep
import Mes.Auth.Cleanup
import Mes.Auth.CleanupRefresh
import Mes.Shop.RedeemAnswers
import Mes.Transact.Sealed
import Mes.Auth.Passwords
import Mes.Auth.LoginAlone
import Mes.Auth.EveryAccount
import Mes.Transact.Brackets
import Mes.Shop.RedeemRace
import Mes.HandlerMandates
import Mes.Ledger
import Mes.Auth.Undisturbed
import Mes.Transact.Observe
import Mes.Courses.Catalogue
import Mes.Lessons.Dashboard
import Mes.Shop.Preview
import Mes.Deadlock
