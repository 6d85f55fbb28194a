/-
  WebBaseline.Lookup.Bundled.Browsers

  The facts about browsers that come with the library: release dates, and the
  versions that brought some features.
-/

import WebBaseline.Lookup.Support

namespace WebBaseline.Lookup

open WebBaseline.Data (KeyMap)

/-- When the bundled browser versions were released. -/
def bundledReleases : List (String × KeyMap String) :=
  [("chrome", KeyMap.ofList
     [("5", "2010-05-25"), ("12", "2011-06-07"), ("29", "2013-08-20"), ("32", "2014-01-14"),
      ("37", "2014-08-26"), ("40", "2015-01-21"), ("42", "2015-04-14"), ("51", "2016-05-25"),
      ("55", "2016-12-01"), ("57", "2017-03-09"), ("64", "2018-01-24"), ("66", "2018-04-17"),
      ("79", "2019-12-10"), ("84", "2020-07-14")]),
   ("chrome_android", KeyMap.ofList
     [("18", "2012-06-27"), ("29", "2013-08-20"), ("32", "2014-01-15"), ("37", "2014-09-03"),
      ("40", "2015-01-21"), ("42", "2015-04-15"), ("51", "2016-06-08"), ("55", "2016-12-06"),
      ("57", "2017-03-16"), ("64", "2018-01-23"), ("66", "2018-04-17"), ("79", "2019-12-17"),
      ("84", "2020-07-27")]),
   ("edge", KeyMap.ofList
     [("12", "2015-07-29"), ("14", "2016-08-02"), ("15", "2017-04-11"), ("16", "2017-10-17"),
      ("17", "2018-04-30"), ("79", "2020-01-15"), ("84", "2020-07-16")]),
   ("firefox", KeyMap.ofList
     [("3.5", "2009-06-30"), ("20", "2013-04-02"), ("29", "2014-04-29"), ("39", "2015-07-02"),
      ("44", "2016-01-26"), ("49", "2016-09-20"), ("52", "2017-03-07"), ("55", "2017-08-08"),
      ("63", "2018-10-23"), ("69", "2019-09-03"), ("75", "2020-04-07"), ("98", "2022-02-08")]),
   ("firefox_android", KeyMap.ofList
     [("4", "2011-03-29"), ("20", "2013-04-02"), ("29", "2014-04-29"), ("39", "2015-07-02"),
      ("44", "2016-01-26"), ("49", "2016-09-20"), ("52", "2017-03-07"), ("55", "2017-08-08"),
      ("63", "2018-10-23"), ("79", "2020-07-28"), ("98", "2022-02-08")]),
   ("safari", KeyMap.ofList
     [("5", "2010-06-07"), ("6", "2012-07-25"), ("8", "2014-10-16"), ("9", "2015-09-30"),
      ("10.1", "2017-03-27"), ("11.1", "2018-03-29"), ("12.1", "2019-03-25"),
      ("13.1", "2020-03-24"), ("14.1", "2021-04-26"), ("15.4", "2022-03-14")]),
   ("safari_ios", KeyMap.ofList
     [("3", "2009-06-17"), ("6", "2012-09-19"), ("8", "2014-09-17"), ("9", "2015-09-16"),
      ("10.3", "2017-03-27"), ("11.3", "2018-03-29"), ("12.2", "2019-03-25"),
      ("13.4", "2020-03-24"), ("14.5", "2021-04-26"), ("15.4", "2022-03-14")])]

/-- The versions that brought the bundled features. -/
def bundledVersions : List (String × List (String × String)) :=
  [("api.IntersectionObserver",
     [("chrome", "51"), ("chrome_android", "51"), ("edge", "15"), ("firefox", "55"),
      ("firefox_android", "55"), ("safari", "12.1"), ("safari_ios", "12.2")]),
   ("api.Navigator.clipboard",
     [("chrome", "66"), ("chrome_android", "66"), ("edge", "79"), ("firefox", "63"),
      ("firefox_android", "63"), ("safari", "13.1"), ("safari_ios", "13.4")]),
   ("api.Navigator.geolocation",
     [("chrome", "5"), ("chrome_android", "18"), ("edge", "12"), ("firefox", "3.5"),
      ("firefox_android", "4"), ("safari", "5"), ("safari_ios", "3")]),
   ("api.Navigator.serviceWorker",
     [("chrome", "40"), ("chrome_android", "40"), ("edge", "17"), ("firefox", "44"),
      ("firefox_android", "44"), ("safari", "11.1"), ("safari_ios", "11.3")]),
   ("api.ResizeObserver",
     [("chrome", "64"), ("chrome_android", "64"), ("edge", "79"), ("firefox", "69"),
      ("firefox_android", "79"), ("safari", "13.1"), ("safari_ios", "13.4")]),
   ("api.fetch",
     [("chrome", "42"), ("chrome_android", "42"), ("edge", "14"), ("firefox", "39"),
      ("firefox_android", "39"), ("safari", "10.1"), ("safari_ios", "10.3")]),
   ("css.properties.display.flex",
     [("chrome", "29"), ("chrome_android", "29"), ("edge", "12"), ("firefox", "20"),
      ("firefox_android", "20"), ("safari", "9"), ("safari_ios", "9")]),
   ("css.properties.gap",
     [("chrome", "84"), ("chrome_android", "84"), ("edge", "84"), ("firefox", "63"),
      ("firefox_android", "63"), ("safari", "14.1"), ("safari_ios", "14.5")]),
   ("css.properties.grid",
     [("chrome", "57"), ("chrome_android", "57"), ("edge", "16"), ("firefox", "52"),
      ("firefox_android", "52"), ("safari", "10.1"), ("safari_ios", "10.3")]),
   ("css.types.clamp",
     [("chrome", "79"), ("chrome_android", "79"), ("edge", "79"), ("firefox", "75"),
      ("firefox_android", "79"), ("safari", "13.1"), ("safari_ios", "13.4")]),
   ("css.types.max",
     [("chrome", "79"), ("chrome_android", "79"), ("edge", "79"), ("firefox", "75"),
      ("firefox_android", "79"), ("safari", "11.1"), ("safari_ios", "11.3")]),
   ("css.types.min",
     [("chrome", "79"), ("chrome_android", "79"), ("edge", "79"), ("firefox", "75"),
      ("firefox_android", "79"), ("safari", "11.1"), ("safari_ios", "11.3")]),
   ("html.elements.details",
     [("chrome", "12"), ("chrome_android", "18"), ("edge", "79"), ("firefox", "49"),
      ("firefox_android", "49"), ("safari", "6"), ("safari_ios", "6")]),
   ("html.elements.dialog",
     [("chrome", "37"), ("chrome_android", "37"), ("edge", "79"), ("firefox", "98"),
      ("firefox_android", "98"), ("safari", "15.4"), ("safari_ios", "15.4")]),
   ("html.elements.summary",
     [("chrome", "12"), ("chrome_android", "18"), ("edge", "79"), ("firefox", "49"),
      ("firefox_android", "49"), ("safari", "6"), ("safari_ios", "6")]),
   ("javascript.builtins.Promise",
     [("chrome", "32"), ("chrome_android", "32"), ("edge", "12"), ("firefox", "29"),
      ("firefox_android", "29"), ("safari", "8"), ("safari_ios", "8")]),
   ("javascript.statements.async_function",
     [("chrome", "55"), ("chrome_android", "55"), ("edge", "15"), ("firefox", "52"),
      ("firefox_android", "52"), ("safari", "10.1"), ("safari_ios", "10.3")])]

/-- The bundled facts. -/
def SupportFacts.bundled : SupportFacts where
  releases := KeyMap.ofList bundledReleases
  features := KeyMap.ofList (bundledVersions.map (fun f =>
    (f.1, (KeyMap.ofList f.2).map VersionAdded.version)))

end WebBaseline.Lookup
