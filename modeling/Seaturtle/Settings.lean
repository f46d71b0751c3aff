/-! The messages of `setting.proto`, as their accessors return them: a field that
is not set has its default. Fields that no modelled function reads are left out. -/
namespace Seaturtle

namespace Settings

structure State where
  diskCacheSizeMb : Int := 128
  singleContext : Bool := true
  persistCache : Bool := true
  allowPersistantCookies : Bool := true
  deriving DecidableEq

structure WebPreferences where
  javascriptEnabled : Bool := true
  javascriptCanOpenWindowsAutomatically : Bool := true
  loadsImagesAutomatically : Bool := true
  imagesEnabled : Bool := true
  remoteFontsEnabled : Bool := true
  dnsPrefetchingEnabled : Bool := true
  localStorageEnabled : Bool := true
  databasesEnabled : Bool := false
  applicationCacheEnabled : Bool := false
  webaudioEnabled : Bool := true
  experimentalWebglEnabled : Bool := true
  accelerated2dCanvasEnabled : Bool := true
  acceleratedFiltersEnabled : Bool := true
  allowDisplayingInsecureContent : Bool := true
  allowRunningInsecureContent : Bool := false
  cookieEnabled : Bool := true
  userGestureRequiredForMediaPlayback : Bool := false
  deriving DecidableEq

structure Network where
  spdyEnabled : Bool := true
  deriving DecidableEq

structure HttpsRewrite where
  enabled : Bool := true
  httpsOnly : Bool := false
  deriving DecidableEq

structure Filters where
  clearReferrer : Bool := true
  blacklistThirdParties : Bool := true
  deriving DecidableEq

end Settings

structure AllSettings where
  state : Settings.State := {}
  network : Settings.Network := {}
  httpsRewrite : Settings.HttpsRewrite := {}
  filters : Settings.Filters := {}
  webPreferences : Settings.WebPreferences := {}
  deriving DecidableEq

end Seaturtle
